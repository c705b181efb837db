import Mathlib.Data.List.Basic
import Mathlib.Data.List.TakeWhile
import TestScout.Constraint.Reader

/-!
# The grammar of constraints

What a constraint looks like is said twice here, without the reader: how tokens are spelled, and
which token lists derive which constraint. The reader takes tokens from the front of a text one by
one, so each of its goals reads a derivation of its own and leaves the text behind it. Main
statements:

* `Spells`, `Derives`, `Writes`: tokens in a text, the levels of the grammar, and the texts that
  write a constraint;
* `finds_of_readGoal`: whatever a goal reads is spelled in the text and derived;
* `readGoal_ne_tooDeep`: the reader has steps enough;
* `read_eq_ok_iff`: a text is read as a constraint exactly when it writes that constraint.
-/

namespace TestScout.Constraint

/-! ## 1. Tokens -/

/-- A token of a constraint. -/
inductive Token where
  | tag (name : String)
  | negation
  | conjunction
  | disjunction
  | opening
  | closing
deriving DecidableEq, Repr

/-- How a token is spelled. -/
def Token.text : Token → List Char
  | .tag name => name.toList
  | .negation => ['!']
  | .conjunction => ['&', '&']
  | .disjunction => ['|', '|']
  | .opening => ['(']
  | .closing => [')']

/-- Whether a token may end in front of a text: a tag is as long as it can be. -/
def Token.EndsBefore (token : Token) (text : List Char) : Prop :=
  match token with
  | .tag _ => ∀ c ∈ text.head?, isTagChar c = false
  | _ => True

/-- Spaces and tabs only. -/
def IsGap (text : List Char) : Prop :=
  ∀ c ∈ text, isSpaceOrTab c = true

/-- The text begins with these tokens, a gap before each, and goes on with `rest`. -/
inductive Spells : List Token → List Char → List Char → Prop where
  | done (rest : List Char) : Spells [] rest rest
  | token (gap : List Char) (token : Token) (tokens : List Token) (next rest : List Char)
      (hgap : IsGap gap) (hends : token.EndsBefore next) (h : Spells tokens next rest) :
      Spells (token :: tokens) (gap ++ (token.text ++ next)) rest

/-! ## 2. Derivations -/

/-- The levels of the grammar, the loosest binding first. -/
inductive Level where
  | disjunction
  | conjunction
  | negation
  | atom
deriving DecidableEq, Repr

/-- The tokens derive a constraint at a level. A chain of one operator grows at its right end, so
    that it is grouped to the left. -/
inductive Derives : Level → List Token → Constraint → Prop where
  | tag (name : String) (h : isTag name.toList = true) : Derives .atom [.tag name] (.tag name)
  | parentheses (tokens : List Token) (x : Constraint) (h : Derives .disjunction tokens x) :
      Derives .atom (.opening :: (tokens ++ [.closing])) x
  | ofAtom (tokens : List Token) (x : Constraint) (h : Derives .atom tokens x) :
      Derives .negation tokens x
  | not (tokens : List Token) (x : Constraint) (h : Derives .negation tokens x) :
      Derives .negation (.negation :: tokens) (.not x)
  | ofNegation (tokens : List Token) (x : Constraint) (h : Derives .negation tokens x) :
      Derives .conjunction tokens x
  | and (tokens more : List Token) (x y : Constraint) (h : Derives .conjunction tokens x)
      (h' : Derives .negation more y) :
      Derives .conjunction (tokens ++ .conjunction :: more) (.and x y)
  | ofConjunction (tokens : List Token) (x : Constraint) (h : Derives .conjunction tokens x) :
      Derives .disjunction tokens x
  | or (tokens more : List Token) (x y : Constraint) (h : Derives .disjunction tokens x)
      (h' : Derives .conjunction more y) :
      Derives .disjunction (tokens ++ .disjunction :: more) (.or x y)

/-- The text is a constraint written out, with a gap at its end. -/
def Writes (text : List Char) (x : Constraint) : Prop :=
  ∃ tokens gap, Spells tokens text gap ∧ IsGap gap ∧ Derives .disjunction tokens x

/-! ## 3. Spelling -/

theorem spells_singleton {token : Token} {next : List Char} (hends : token.EndsBefore next) :
    Spells [token] (token.text ++ next) next :=
  Spells.token [] token [] next next (fun _ h => absurd h List.not_mem_nil) hends (.done next)

/-- What is spelled in two parts is spelled. -/
theorem Spells.append {tokens more : List Token} {text middle rest : List Char}
    (h : Spells tokens text middle) (h' : Spells more middle rest) :
    Spells (tokens ++ more) text rest := by
  induction h with
  | done middle => exact h'
  | token gap token tokens next middle hgap hends h ih =>
    exact Spells.token gap token _ next rest hgap hends (ih h')

/-- What is spelled is spelled in two parts, wherever it is cut. -/
theorem Spells.split {tokens more : List Token} {text rest : List Char}
    (h : Spells (tokens ++ more) text rest) :
    ∃ middle, Spells tokens text middle ∧ Spells more middle rest := by
  induction tokens generalizing text with
  | nil => exact ⟨text, .done text, h⟩
  | cons first tokens ih =>
    cases h with
    | token gap _ _ next _ hgap hends h =>
      obtain ⟨middle, hfirst, hmore⟩ := ih h
      exact ⟨middle, .token gap first tokens next middle hgap hends hfirst, hmore⟩

theorem isTag_iff {text : List Char} :
    isTag text = true ↔ text ≠ [] ∧ ∀ c ∈ text, isTagChar c = true := by
  simp [isTag]

/-! ## 4. Single tokens -/

theorem skipSpace_gap {gap : List Char} (hgap : IsGap gap) (text : List Char) :
    skipSpace (gap ++ text) = skipSpace text := by
  unfold skipSpace
  rw [List.dropWhile_append_of_pos hgap]

theorem skipSpace_of_isGap {gap : List Char} (hgap : IsGap gap) : skipSpace gap = [] :=
  List.dropWhile_eq_nil_iff.mpr hgap

/-- A text is a gap and what stands behind its spaces. -/
theorem exists_gap (text : List Char) : ∃ gap, IsGap gap ∧ text = gap ++ skipSpace text :=
  ⟨text.takeWhile isSpaceOrTab, fun _ hc => List.mem_takeWhile_imp hc,
    List.takeWhile_append_dropWhile.symm⟩

theorem isGap_of_skipSpace {text : List Char} (h : skipSpace text = []) : IsGap text :=
  List.dropWhile_eq_nil_iff.mp h

theorem eat_gap {gap : List Char} (hgap : IsGap gap) (token text : List Char) :
    eat token (gap ++ text) = eat token text := by
  unfold eat
  rw [skipSpace_gap hgap]

/-- A text that starts with no space is not skipped. -/
theorem skipSpace_cons {c : Char} (h : isSpaceOrTab c = false) (text : List Char) :
    skipSpace (c :: text) = c :: text := by
  unfold skipSpace
  rw [List.dropWhile_cons_of_neg (by simp [h])]

/-- What is eaten stood behind a gap. -/
theorem of_eat {token text rest : List Char} (h : eat token text = some rest) :
    ∃ gap, IsGap gap ∧ text = gap ++ (token ++ rest) := by
  obtain ⟨gap, hgap, htext⟩ := exists_gap text
  have hfront : token ++ rest = skipSpace text :=
    List.isPrefixOf?_eq_some_iff_append_eq.mp h
  exact ⟨gap, hgap, by rw [hfront]; exact htext⟩

/-- Eating a token that stands there leaves what is behind it. -/
theorem eat_token {gap token : List Char} (hgap : IsGap gap) {c : Char} (next : List Char)
    (hhead : token.head? = some c) (hc : isSpaceOrTab c = false) :
    eat token (gap ++ (token ++ next)) = some next := by
  obtain ⟨more, rfl⟩ := List.head?_eq_some_iff.mp hhead
  rw [eat_gap hgap]
  unfold eat
  rw [List.cons_append, skipSpace_cons hc]
  exact List.isPrefixOf?_eq_some_iff_append_eq.mpr rfl

/-- A token is not eaten where another character stands. -/
theorem eat_of_head_ne {gap token : List Char} (hgap : IsGap gap) {c d : Char} {text : List Char}
    (htoken : token.head? = some d) (hc : isSpaceOrTab c = false) (hne : c ≠ d) :
    eat token (gap ++ c :: text) = none := by
  obtain ⟨more, rfl⟩ := List.head?_eq_some_iff.mp htoken
  rw [eat_gap hgap]
  unfold eat
  rw [skipSpace_cons hc]
  simp [List.isPrefixOf?, Ne.symm hne]

/-- Nothing is eaten of a gap. -/
theorem eat_of_isGap {gap token : List Char} (hgap : IsGap gap) (htoken : token ≠ []) :
    eat token gap = none := by
  obtain ⟨c, more, rfl⟩ := List.exists_cons_of_ne_nil htoken
  unfold eat
  rw [skipSpace_of_isGap hgap]
  rfl

/-- A character of a tag is none of the characters that other tokens begin with. -/
theorem of_isTagChar {c : Char} (h : isTagChar c = true) :
    isSpaceOrTab c = false ∧ c ≠ '!' ∧ c ≠ '(' := by
  refine ⟨?_, ?_, ?_⟩
  · cases hspace : isSpaceOrTab c with
    | false => rfl
    | true =>
      simp only [isSpaceOrTab, Bool.or_eq_true, beq_iff_eq] at hspace
      rcases hspace with rfl | rfl <;> exact absurd h (by decide)
  · rintro rfl
    exact absurd h (by decide)
  · rintro rfl
    exact absurd h (by decide)

/-! ## 5. What the goals read -/

/-- The goal that reads a level of the grammar. -/
def Level.goal : Level → Goal
  | .disjunction => .disjunction
  | .conjunction => .conjunction
  | .negation => .negation
  | .atom => .atom

/-- What the tokens that a goal reads have to do with the constraint that it gives. Behind a
    constraint that is read already, the tokens go on with its chain. -/
def Goal.Reads (goal : Goal) (tokens : List Token) (x : Constraint) : Prop :=
  match goal with
  | .disjunction => Derives .disjunction tokens x
  | .moreDisjuncts first =>
    ∀ before, Derives .disjunction before first → Derives .disjunction (before ++ tokens) x
  | .conjunction => Derives .conjunction tokens x
  | .moreConjuncts first =>
    ∀ before, Derives .conjunction before first → Derives .conjunction (before ++ tokens) x
  | .negation => Derives .negation tokens x
  | .atom => Derives .atom tokens x

/-- The text begins with tokens from which the goal reads the constraint, and goes on with
    `rest`. -/
def Goal.Finds (goal : Goal) (text : List Char) (x : Constraint) (rest : List Char) : Prop :=
  ∃ tokens, Spells tokens text rest ∧ goal.Reads tokens x

section Finds

variable {text behind middle rest : List Char} {x y z : Constraint}

/-- A token that was eaten is spelled before what follows. -/
theorem spells_of_eat (token : Token) (h : eat token.text text = some rest)
    (hends : token.EndsBefore rest) : Spells [token] text rest := by
  obtain ⟨gap, hgap, rfl⟩ := of_eat h
  exact Spells.token gap token [] rest rest hgap hends (.done rest)

theorem finds_disjunction (h : Goal.conjunction.Finds text x middle)
    (h' : (Goal.moreDisjuncts x).Finds middle z rest) : Goal.disjunction.Finds text z rest := by
  obtain ⟨tokens, hspells, hreads⟩ := h
  obtain ⟨more, hmore, hchain⟩ := h'
  exact ⟨tokens ++ more, hspells.append hmore, hchain tokens (.ofConjunction tokens x hreads)⟩

theorem finds_noMoreDisjuncts : (Goal.moreDisjuncts x).Finds text x text :=
  ⟨[], .done text, fun before hbefore => by rw [List.append_nil]; exact hbefore⟩

theorem finds_moreDisjuncts (heat : eat ['|', '|'] text = some behind)
    (h : Goal.conjunction.Finds behind y middle)
    (h' : (Goal.moreDisjuncts (.or x y)).Finds middle z rest) :
    (Goal.moreDisjuncts x).Finds text z rest := by
  obtain ⟨tokens, hspells, hreads⟩ := h
  obtain ⟨more, hmore, hchain⟩ := h'
  have hoperator := spells_of_eat .disjunction heat trivial
  refine ⟨.disjunction :: (tokens ++ more), hoperator.append (hspells.append hmore), ?_⟩
  intro before hbefore
  have hlonger := hchain _ (.or before tokens x y hbefore hreads)
  rw [List.append_assoc] at hlonger
  exact hlonger

theorem finds_conjunction (h : Goal.negation.Finds text x middle)
    (h' : (Goal.moreConjuncts x).Finds middle z rest) : Goal.conjunction.Finds text z rest := by
  obtain ⟨tokens, hspells, hreads⟩ := h
  obtain ⟨more, hmore, hchain⟩ := h'
  exact ⟨tokens ++ more, hspells.append hmore, hchain tokens (.ofNegation tokens x hreads)⟩

theorem finds_noMoreConjuncts : (Goal.moreConjuncts x).Finds text x text :=
  ⟨[], .done text, fun before hbefore => by rw [List.append_nil]; exact hbefore⟩

theorem finds_moreConjuncts (heat : eat ['&', '&'] text = some behind)
    (h : Goal.negation.Finds behind y middle)
    (h' : (Goal.moreConjuncts (.and x y)).Finds middle z rest) :
    (Goal.moreConjuncts x).Finds text z rest := by
  obtain ⟨tokens, hspells, hreads⟩ := h
  obtain ⟨more, hmore, hchain⟩ := h'
  have hoperator := spells_of_eat .conjunction heat trivial
  refine ⟨.conjunction :: (tokens ++ more), hoperator.append (hspells.append hmore), ?_⟩
  intro before hbefore
  have hlonger := hchain _ (.and before tokens x y hbefore hreads)
  rw [List.append_assoc] at hlonger
  exact hlonger

theorem finds_ofAtom (h : Goal.atom.Finds text x rest) : Goal.negation.Finds text x rest := by
  obtain ⟨tokens, hspells, hreads⟩ := h
  exact ⟨tokens, hspells, .ofAtom tokens x hreads⟩

theorem finds_not (heat : eat ['!'] text = some behind) (h : Goal.negation.Finds behind x rest) :
    Goal.negation.Finds text (.not x) rest := by
  obtain ⟨tokens, hspells, hreads⟩ := h
  have hsign := spells_of_eat .negation heat trivial
  exact ⟨.negation :: tokens, hsign.append hspells, .not tokens x hreads⟩

theorem finds_parentheses (heat : eat ['('] text = some behind)
    (h : Goal.disjunction.Finds behind x middle) (hlast : eat [')'] middle = some rest) :
    Goal.atom.Finds text x rest := by
  obtain ⟨tokens, hspells, hreads⟩ := h
  have hopening := spells_of_eat .opening heat trivial
  have hclosing := spells_of_eat .closing hlast trivial
  have hall := hopening.append (hspells.append hclosing)
  exact ⟨Token.opening :: (tokens ++ [Token.closing]), hall, .parentheses tokens x hreads⟩

/-- The longest run of characters of a tag is a tag that ends there. -/
theorem finds_tag (h : (skipSpace text).takeWhile isTagChar ≠ []) :
    Goal.atom.Finds text (.tag (String.ofList ((skipSpace text).takeWhile isTagChar)))
      ((skipSpace text).dropWhile isTagChar) := by
  obtain ⟨gap, hgap, htext⟩ := exists_gap text
  generalize hname : (skipSpace text).takeWhile isTagChar = name at h
  generalize hbehind : (skipSpace text).dropWhile isTagChar = behind
  have hsplit : skipSpace text = name ++ behind := by
    rw [← hname, ← hbehind, List.takeWhile_append_dropWhile]
  have htag : isTag name = true := by
    refine isTag_iff.mpr ⟨h, fun c hc => ?_⟩
    rw [← hname] at hc
    exact List.mem_takeWhile_imp hc
  have hends : (Token.tag (String.ofList name)).EndsBefore behind := by
    intro c hc
    have hnot := List.head?_dropWhile_not isTagChar (skipSpace text)
    rw [hbehind, Option.mem_def.mp hc] at hnot
    simpa using hnot
  have htoken : (Token.tag (String.ofList name)).text = name := String.toList_ofList
  refine ⟨[.tag (String.ofList name)], ?_, .tag _ (by rw [String.toList_ofList]; exact htag)⟩
  have hspells := Spells.token gap (.tag (String.ofList name)) [] behind behind hgap hends
    (.done behind)
  rw [htoken, ← hsplit, ← htext] at hspells
  exact hspells

end Finds

/-- **Whatever a goal reads is spelled in the text and derived.** The induction is on the steps. -/
theorem finds_of_readGoal {n : Nat} {goal : Goal} {text rest : List Char} {x : Constraint}
    (h : readGoal n goal text = .ok (x, rest)) : goal.Finds text x rest := by
  induction n generalizing goal text rest x with
  | zero => simp [readGoal] at h
  | succ n ih =>
    cases goal with
    | disjunction =>
      simp only [readGoal] at h
      split at h
      · simp at h
      · rename_i hfirst
        exact finds_disjunction (ih hfirst) (ih h)
    | moreDisjuncts first =>
      simp only [readGoal] at h
      split at h
      · obtain ⟨rfl, rfl⟩ := Prod.mk.inj (Except.ok.inj h)
        exact finds_noMoreDisjuncts
      · rename_i heat
        split at h
        · simp at h
        · rename_i hsecond
          exact finds_moreDisjuncts heat (ih hsecond) (ih h)
    | conjunction =>
      simp only [readGoal] at h
      split at h
      · simp at h
      · rename_i hfirst
        exact finds_conjunction (ih hfirst) (ih h)
    | moreConjuncts first =>
      simp only [readGoal] at h
      split at h
      · obtain ⟨rfl, rfl⟩ := Prod.mk.inj (Except.ok.inj h)
        exact finds_noMoreConjuncts
      · rename_i heat
        split at h
        · simp at h
        · rename_i hsecond
          exact finds_moreConjuncts heat (ih hsecond) (ih h)
    | negation =>
      simp only [readGoal] at h
      split at h
      · exact finds_ofAtom (ih h)
      · rename_i heat
        split at h
        · simp at h
        · rename_i hinner
          obtain ⟨rfl, rfl⟩ := Prod.mk.inj (Except.ok.inj h)
          exact finds_not heat (ih hinner)
    | atom =>
      simp only [readGoal] at h
      split at h
      · rename_i heat
        split at h
        · simp at h
        · rename_i hinner
          split at h
          · rename_i hlast
            obtain ⟨rfl, rfl⟩ := Prod.mk.inj (Except.ok.inj h)
            exact finds_parentheses heat (ih hinner) hlast
          · simp at h
      · split at h
        · simp at h
        · simp at h
        · rename_i hend hother
          obtain ⟨rfl, rfl⟩ := Prod.mk.inj (Except.ok.inj h)
          refine finds_tag fun hnone => ?_
          cases htext : skipSpace text with
          | nil => exact hend hnone htext
          | cons c tail => exact hother c tail hnone htext

/-! ## 6. Steps enough -/

theorem length_le_of_spells {tokens : List Token} {text rest : List Char}
    (h : Spells tokens text rest) : rest.length ≤ text.length := by
  induction h with
  | done rest => exact Nat.le_refl _
  | token gap token tokens next rest hgap hends h ih =>
    rw [List.length_append, List.length_append]
    omega

/-- Every derivation takes a character of the text. -/
theorem length_lt_of_derives {level : Level} {tokens : List Token} {x : Constraint}
    {text rest : List Char} (h : Derives level tokens x) (hspells : Spells tokens text rest) :
    rest.length < text.length := by
  induction h generalizing text rest with
  | tag name h =>
    cases hspells with
    | token gap _ _ next _ hgap hends hnext =>
      have hle := length_le_of_spells hnext
      have hpos : 0 < (Token.tag name).text.length :=
        List.length_pos_iff.mpr (isTag_iff.mp h).1
      rw [List.length_append, List.length_append]
      omega
  | parentheses tokens x h ih =>
    cases hspells with
    | token gap _ _ next _ hgap hends hnext =>
      have hle := length_le_of_spells hnext
      simp only [Token.text, List.length_append, List.length_cons]
      omega
  | ofAtom tokens x h ih => exact ih hspells
  | not tokens x h ih =>
    cases hspells with
    | token gap _ _ next _ hgap hends hnext =>
      have hlt := ih hnext
      simp only [Token.text, List.length_append, List.length_cons]
      omega
  | ofNegation tokens x h ih => exact ih hspells
  | and tokens more x y h h' ih ih' =>
    obtain ⟨middle, hfirst, hmore⟩ := hspells.split
    exact Nat.lt_of_le_of_lt (length_le_of_spells hmore) (ih hfirst)
  | ofConjunction tokens x h ih => exact ih hspells
  | or tokens more x y h h' ih ih' =>
    obtain ⟨middle, hfirst, hmore⟩ := hspells.split
    exact Nat.lt_of_le_of_lt (length_le_of_spells hmore) (ih hfirst)

/-- What the reader reads at a level takes a character of the text. -/
theorem length_lt_of_readGoal {n : Nat} (level : Level) {text rest : List Char} {x : Constraint}
    (h : readGoal n level.goal text = .ok (x, rest)) : rest.length < text.length := by
  obtain ⟨tokens, hspells, hreads⟩ := finds_of_readGoal h
  have hderives : Derives level tokens x := by
    cases level <;> exact hreads
  exact length_lt_of_derives hderives hspells

/-- Eating a token takes its characters. -/
theorem length_of_eat {token text rest : List Char} (h : eat token text = some rest) :
    token.length + rest.length ≤ text.length := by
  obtain ⟨gap, -, rfl⟩ := of_eat h
  rw [List.length_append, List.length_append]
  omega

/-- How many steps a goal needs on a text of this length. -/
def Goal.stepsOn (goal : Goal) (length : Nat) : Nat :=
  8 * length +
    match goal with
    | .disjunction => 4
    | .conjunction => 3
    | .negation => 2
    | .atom | .moreDisjuncts _ | .moreConjuncts _ => 1

/-- **The reader has steps enough.** -/
theorem readGoal_ne_tooDeep {n : Nat} {goal : Goal} {text : List Char}
    (hn : goal.stepsOn text.length ≤ n) : readGoal n goal text ≠ .error .tooDeep := by
  induction n generalizing goal text with
  | zero =>
    exfalso
    cases goal <;> simp [Goal.stepsOn] at hn
  | succ n ih =>
    cases goal with
    | disjunction =>
      simp only [readGoal, Goal.stepsOn] at hn ⊢
      have hfirst : readGoal n .conjunction text ≠ .error .tooDeep :=
        ih (by simp only [Goal.stepsOn]; omega)
      split
      · rename_i e he
        exact fun h => hfirst (he.trans h)
      · rename_i x middle hread
        have hlt := length_lt_of_readGoal .conjunction hread
        exact ih (by simp only [Goal.stepsOn]; omega)
    | moreDisjuncts first =>
      simp only [readGoal, Goal.stepsOn] at hn ⊢
      split
      · simp
      · rename_i behind heat
        have hle := length_of_eat heat
        simp only [List.length_cons, List.length_nil] at hle
        have hsecond : readGoal n .conjunction behind ≠ .error .tooDeep :=
          ih (by simp only [Goal.stepsOn]; omega)
        split
        · rename_i e he
          exact fun h => hsecond (he.trans h)
        · rename_i x middle hread
          have hlt := length_lt_of_readGoal .conjunction hread
          exact ih (by simp only [Goal.stepsOn]; omega)
    | conjunction =>
      simp only [readGoal, Goal.stepsOn] at hn ⊢
      have hfirst : readGoal n .negation text ≠ .error .tooDeep :=
        ih (by simp only [Goal.stepsOn]; omega)
      split
      · rename_i e he
        exact fun h => hfirst (he.trans h)
      · rename_i x middle hread
        have hlt := length_lt_of_readGoal .negation hread
        exact ih (by simp only [Goal.stepsOn]; omega)
    | moreConjuncts first =>
      simp only [readGoal, Goal.stepsOn] at hn ⊢
      split
      · simp
      · rename_i behind heat
        have hle := length_of_eat heat
        simp only [List.length_cons, List.length_nil] at hle
        have hsecond : readGoal n .negation behind ≠ .error .tooDeep :=
          ih (by simp only [Goal.stepsOn]; omega)
        split
        · rename_i e he
          exact fun h => hsecond (he.trans h)
        · rename_i x middle hread
          have hlt := length_lt_of_readGoal .negation hread
          exact ih (by simp only [Goal.stepsOn]; omega)
    | negation =>
      simp only [readGoal, Goal.stepsOn] at hn ⊢
      split
      · exact ih (by simp only [Goal.stepsOn]; omega)
      · rename_i behind heat
        have hle := length_of_eat heat
        simp only [List.length_cons, List.length_nil] at hle
        have hinner : readGoal n .negation behind ≠ .error .tooDeep :=
          ih (by simp only [Goal.stepsOn]; omega)
        split
        · rename_i e he
          exact fun h => hinner (he.trans h)
        · simp
    | atom =>
      simp only [readGoal, Goal.stepsOn] at hn ⊢
      split
      · rename_i behind heat
        have hle := length_of_eat heat
        simp only [List.length_cons, List.length_nil] at hle
        have hinner : readGoal n .disjunction behind ≠ .error .tooDeep :=
          ih (by simp only [Goal.stepsOn]; omega)
        split
        · rename_i e he
          exact fun h => hinner (he.trans h)
        · split <;> simp
      · split <;> simp

/-! ## 7. What is derived is read -/

/-- A tag is read to its end. -/
theorem readGoal_tag {n : Nat} {name : String} {gap next : List Char}
    (h : isTag name.toList = true) (hgap : IsGap gap)
    (hends : (Token.tag name).EndsBefore next) :
    readGoal (n + 1) .atom (gap ++ (name.toList ++ next)) = .ok (.tag name, next) := by
  obtain ⟨hne, hchars⟩ := isTag_iff.mp h
  obtain ⟨c, more, hname⟩ := List.exists_cons_of_ne_nil hne
  obtain ⟨hspace, hbang, hopening⟩ := of_isTagChar (hchars c (hname ▸ List.mem_cons_self))
  have hnone : eat ['('] (gap ++ (name.toList ++ next)) = none := by
    rw [hname]
    exact eat_of_head_ne hgap rfl hspace hopening
  have hskip : skipSpace (gap ++ (name.toList ++ next)) = name.toList ++ next := by
    rw [skipSpace_gap hgap, hname]
    exact skipSpace_cons hspace _
  have hstop : next.takeWhile isTagChar = [] ∧ next.dropWhile isTagChar = next := by
    cases next with
    | nil => exact ⟨rfl, rfl⟩
    | cons d rest =>
      have hd : isTagChar d = false := hends d rfl
      simp [hd]
  have htake : (name.toList ++ next).takeWhile isTagChar = name.toList := by
    rw [List.takeWhile_append_of_pos hchars, hstop.1, List.append_nil]
  have hdrop : (name.toList ++ next).dropWhile isTagChar = next := by
    rw [List.dropWhile_append_of_pos hchars, hstop.2]
  simp only [readGoal, hnone, hskip, htake, hdrop]
  rw [hname]
  simp only [← hname, String.ofList_toList]

/-- Nothing that an atom is spelled with can be read as a negation. -/
theorem eat_negation_of_atom {tokens : List Token} {x : Constraint} {text rest : List Char}
    (h : Derives .atom tokens x) (hspells : Spells tokens text rest) : eat ['!'] text = none := by
  cases h with
  | tag name h =>
    cases hspells with
    | token gap _ _ next _ hgap hends hnext =>
      obtain ⟨hne, hchars⟩ := isTag_iff.mp h
      obtain ⟨c, more, hname⟩ := List.exists_cons_of_ne_nil hne
      obtain ⟨hspace, hbang, -⟩ := of_isTagChar (hchars c (hname ▸ List.mem_cons_self))
      have htext : (Token.tag name).text = c :: more := hname
      rw [htext]
      exact eat_of_head_ne hgap rfl hspace hbang
  | parentheses tokens x h =>
    cases hspells with
    | token gap _ _ next _ hgap hends hnext =>
      exact eat_of_head_ne hgap rfl (by decide) (by decide)

theorem readGoal_moreConjuncts_of_none {n : Nat} {x : Constraint} {rest : List Char}
    (hn : (Goal.moreConjuncts x).stepsOn rest.length ≤ n) (h : eat ['&', '&'] rest = none) :
    readGoal n (.moreConjuncts x) rest = .ok (x, rest) := by
  cases n with
  | zero => simp [Goal.stepsOn] at hn
  | succ n => simp only [readGoal, h]

theorem readGoal_moreDisjuncts_of_none {n : Nat} {x : Constraint} {rest : List Char}
    (hn : (Goal.moreDisjuncts x).stepsOn rest.length ≤ n) (h : eat ['|', '|'] rest = none) :
    readGoal n (.moreDisjuncts x) rest = .ok (x, rest) := by
  cases n with
  | zero => simp [Goal.stepsOn] at hn
  | succ n => simp only [readGoal, h]

/-- The reader comes from the front of the text to its rest with the constraint in hand. A chain is
    not over there: it may go on, so it is left to the goal that reads on. The rest of a
    disjunction must not go on with `&&`, which would belong to its last conjunction. -/
def Level.Reaches (level : Level) (text : List Char) (x : Constraint) (rest : List Char) : Prop :=
  ∀ n, level.goal.stepsOn text.length ≤ n →
    match level with
    | .disjunction => eat ['&', '&'] rest = none →
      ∃ m, (Goal.moreDisjuncts x).stepsOn rest.length ≤ m ∧
        readGoal n .disjunction text = readGoal m (.moreDisjuncts x) rest
    | .conjunction =>
      ∃ m, (Goal.moreConjuncts x).stepsOn rest.length ≤ m ∧
        readGoal n .conjunction text = readGoal m (.moreConjuncts x) rest
    | .negation => readGoal n .negation text = .ok (x, rest)
    | .atom => readGoal n .atom text = .ok (x, rest)

/-- **What is derived is read.** The induction is on the derivation. -/
theorem reaches_of_derives {level : Level} {tokens : List Token} {x : Constraint}
    {text rest : List Char} (h : Derives level tokens x) (hspells : Spells tokens text rest) :
    level.Reaches text x rest := by
  induction h generalizing text rest with
  | tag name h =>
    intro n hn
    cases n with
    | zero => simp [Goal.stepsOn, Level.goal] at hn
    | succ n =>
      cases hspells with
      | token gap _ _ next _ hgap hends hnext =>
        cases hnext with
        | done _ => exact readGoal_tag h hgap hends
  | parentheses tokens x h ih =>
    intro n hn
    cases hspells with
    | token gap _ _ next _ hgap hends hnext =>
      obtain ⟨middle, hinner, hclosing⟩ := hnext.split
      cases hclosing with
      | token gap' _ _ behind _ hgap' hends' hbehind =>
        cases hbehind with
        | done _ =>
          simp only [Goal.stepsOn, Level.goal, Token.text, List.length_append,
            List.length_cons] at hn
          cases n with
          | zero => omega
          | succ n =>
            have hsteps : Level.disjunction.goal.stepsOn next.length ≤ n := by
              simp only [Goal.stepsOn, Level.goal]
              omega
            have hand : eat ['&', '&'] (gap' ++ (Token.closing.text ++ rest)) = none :=
              eat_of_head_ne hgap' rfl (by decide) (by decide)
            have hor : eat ['|', '|'] (gap' ++ (Token.closing.text ++ rest)) = none :=
              eat_of_head_ne hgap' rfl (by decide) (by decide)
            obtain ⟨m, hm, hread⟩ := ih hinner n hsteps hand
            rw [readGoal_moreDisjuncts_of_none hm hor] at hread
            have hopen : eat ['('] (gap ++ (Token.opening.text ++ next)) = some next :=
              eat_token hgap next rfl (by decide)
            have hclose : eat [')'] (gap' ++ (Token.closing.text ++ rest)) = some rest :=
              eat_token hgap' rest rfl (by decide)
            simp only [readGoal, hopen, hread, hclose]
  | ofAtom tokens x h ih =>
    intro n hn
    simp only [Goal.stepsOn, Level.goal] at hn
    cases n with
    | zero => omega
    | succ n =>
      have hatom : readGoal n .atom text = .ok (x, rest) :=
        ih hspells n (by simp only [Goal.stepsOn, Level.goal]; omega)
      simp only [readGoal, eat_negation_of_atom h hspells, hatom]
  | not tokens x h ih =>
    intro n hn
    cases hspells with
    | token gap _ _ next _ hgap hends hnext =>
      simp only [Goal.stepsOn, Level.goal, Token.text, List.length_append, List.length_cons] at hn
      cases n with
      | zero => omega
      | succ n =>
        have hinner : readGoal n .negation next = .ok (x, rest) :=
          ih hnext n (by simp only [Goal.stepsOn, Level.goal]; omega)
        have hsign : eat ['!'] (gap ++ (Token.negation.text ++ next)) = some next :=
          eat_token hgap next rfl (by decide)
        simp only [readGoal, hsign, hinner]
  | ofNegation tokens x h ih =>
    intro n hn
    have hlt := length_lt_of_derives h hspells
    simp only [Goal.stepsOn, Level.goal] at hn
    cases n with
    | zero => omega
    | succ n =>
      have hfirst : readGoal n .negation text = .ok (x, rest) :=
        ih hspells n (by simp only [Goal.stepsOn, Level.goal]; omega)
      exact ⟨n, by simp only [Goal.stepsOn]; omega, by simp only [readGoal, hfirst]⟩
  | and tokens more x y h h' ih ih' =>
    intro n hn
    obtain ⟨middle, hfirst, hrest⟩ := hspells.split
    obtain ⟨m, hm, hread⟩ := ih hfirst n hn
    cases hrest with
    | token gap _ _ next _ hgap hends hnext =>
      have hlt := length_lt_of_derives h' hnext
      simp only [Goal.stepsOn, Token.text, List.length_append, List.length_cons] at hm
      cases m with
      | zero => omega
      | succ m =>
        have hsecond : readGoal m .negation next = .ok (y, rest) :=
          ih' hnext m (by simp only [Goal.stepsOn, Level.goal]; omega)
        have hoperator : eat ['&', '&'] (gap ++ (Token.conjunction.text ++ next)) = some next :=
          eat_token hgap next rfl (by decide)
        refine ⟨m, by simp only [Goal.stepsOn]; omega, ?_⟩
        rw [hread]
        simp only [readGoal, hoperator, hsecond]
  | ofConjunction tokens x h ih =>
    intro n hn hand
    have hlt := length_lt_of_derives h hspells
    simp only [Goal.stepsOn, Level.goal] at hn
    cases n with
    | zero => omega
    | succ n =>
      obtain ⟨m, hm, hread⟩ := ih hspells n (by simp only [Goal.stepsOn, Level.goal]; omega)
      rw [readGoal_moreConjuncts_of_none hm hand] at hread
      exact ⟨n, by simp only [Goal.stepsOn]; omega, by simp only [readGoal, hread]⟩
  | or tokens more x y h h' ih ih' =>
    intro n hn hand
    obtain ⟨middle, hfirst, hrest⟩ := hspells.split
    cases hrest with
    | token gap _ _ next _ hgap hends hnext =>
      have hlt := length_lt_of_derives h' hnext
      have hnot : eat ['&', '&'] (gap ++ (Token.disjunction.text ++ next)) = none :=
        eat_of_head_ne hgap rfl (by decide) (by decide)
      obtain ⟨m, hm, hread⟩ := ih hfirst n hn hnot
      simp only [Goal.stepsOn, Token.text, List.length_append, List.length_cons] at hm
      cases m with
      | zero => omega
      | succ m =>
        obtain ⟨k, hk, hsecond⟩ := ih' hnext m (by simp only [Goal.stepsOn, Level.goal]; omega)
        rw [readGoal_moreConjuncts_of_none hk hand] at hsecond
        have hoperator : eat ['|', '|'] (gap ++ (Token.disjunction.text ++ next)) = some next :=
          eat_token hgap next rfl (by decide)
        refine ⟨m, by simp only [Goal.stepsOn]; omega, ?_⟩
        rw [hread]
        simp only [readGoal, hoperator, hsecond]

/-! ## 8. Whole texts -/

theorem readGoal_of_writes {text gap : List Char} {tokens : List Token} {x : Constraint}
    (hspells : Spells tokens text gap) (hgap : IsGap gap) (h : Derives .disjunction tokens x) :
    readGoal (stepsFor text) .disjunction text = .ok (x, gap) := by
  have hsteps : Level.disjunction.goal.stepsOn text.length ≤ stepsFor text := by
    simp only [Goal.stepsOn, Level.goal, stepsFor]
    omega
  have hand : eat ['&', '&'] gap = none := eat_of_isGap hgap (List.cons_ne_nil _ _)
  have hor : eat ['|', '|'] gap = none := eat_of_isGap hgap (List.cons_ne_nil _ _)
  obtain ⟨m, hm, hread⟩ := reaches_of_derives h hspells _ hsteps hand
  rw [hread, readGoal_moreDisjuncts_of_none hm hor]

/-- **A text is read as a constraint exactly when it writes that constraint.** -/
theorem read_eq_ok_iff {text : List Char} {x : Constraint} :
    read text = .ok x ↔ Writes text x := by
  constructor
  · intro h
    unfold read at h
    split at h
    · simp at h
    · rename_i y rest hread
      split at h
      · rename_i hskip
        obtain rfl := Except.ok.inj h
        obtain ⟨tokens, hspells, hreads⟩ := finds_of_readGoal hread
        exact ⟨tokens, rest, hspells, isGap_of_skipSpace hskip, hreads⟩
      · simp at h
  · rintro ⟨tokens, gap, hspells, hgap, hderives⟩
    have hread := readGoal_of_writes hspells hgap hderives
    unfold read
    rw [hread]
    simp only [skipSpace_of_isGap hgap]

/-- The reader never gives up for want of steps. -/
theorem read_ne_tooDeep (text : List Char) : read text ≠ .error .tooDeep := by
  have hsteps : readGoal (stepsFor text) .disjunction text ≠ .error .tooDeep :=
    readGoal_ne_tooDeep (by simp only [Goal.stepsOn, stepsFor]; omega)
  unfold read
  split
  · rename_i e he
    exact fun h => hsteps (he.trans (by rw [Except.error.inj h]))
  · split <;> simp

end TestScout.Constraint
