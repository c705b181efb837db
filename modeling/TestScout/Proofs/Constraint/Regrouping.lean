import TestScout.Constraint.Printer
import TestScout.Proofs.Constraint.Grammar

/-!
# Constraints written and read back

A chain of one operator is written without parentheses, and the reader groups it to the left
whatever its grouping was. So a constraint does not come back as itself, but in the form in which
all its chains are grouped to the left. Main statements:

* `leftmost`: the constraint with its chains regrouped;
* `spells_tokens`: the tokens that a constraint is written with are spelled in its text;
* `placed`: at each place at which a constraint can stand, its tokens derive the regrouped
  constraint;
* `read_toText`: what is written is read as the regrouped constraint, which has the meaning, the
  tags and the text of the one that was written.
-/

namespace TestScout.Constraint

/-! ## 1. Chains grouped to the left -/

/-- The conjunction of a constraint and a chain of `&&` grouped to the left, as such a chain. -/
def andChain (x : Constraint) : Constraint → Constraint
  | .and y z => .and (andChain x y) z
  | y => .and x y

/-- The disjunction of a constraint and a chain of `||` grouped to the left, as such a chain. -/
def orChain (x : Constraint) : Constraint → Constraint
  | .or y z => .or (orChain x y) z
  | y => .or x y

/-- The constraint with all its chains grouped to the left. -/
def leftmost : Constraint → Constraint
  | .tag name => .tag name
  | .not x => .not x.leftmost
  | .and x y => x.leftmost.andChain y.leftmost
  | .or x y => x.leftmost.orChain y.leftmost

@[simp] theorem isOr_andChain (x y : Constraint) : (x.andChain y).isOr = false := by
  cases y <;> rfl

@[simp] theorem isOr_orChain (x y : Constraint) : (x.orChain y).isOr = true := by
  cases y <;> rfl

@[simp] theorem isBinary_andChain (x y : Constraint) : (x.andChain y).isBinary = true := by
  cases y <;> rfl

@[simp] theorem isBinary_orChain (x y : Constraint) : (x.orChain y).isBinary = true := by
  cases y <;> rfl

/-- A chain of `||` is one operand of a conjunction. -/
theorem andChain_of_isOr (x : Constraint) {y : Constraint} (h : y.isOr = true) :
    x.andChain y = .and x y := by
  cases y with
  | or y z => rfl
  | tag name => cases h
  | not y => cases h
  | and y z => cases h

/-- What is not joined by `||` is one operand of a disjunction. -/
theorem orChain_of_not_isOr (x : Constraint) {y : Constraint} (h : y.isOr = false) :
    x.orChain y = .or x y := by
  cases y with
  | or y z => cases h
  | tag name => rfl
  | not y => rfl
  | and y z => rfl

theorem andChain_assoc (x y z : Constraint) :
    x.andChain (y.andChain z) = (x.andChain y).andChain z := by
  induction z with
  | and z z' ih ih' =>
    have hinner : x.andChain (y.andChain z) = (x.andChain y).andChain z := ih
    simp only [andChain, hinner]
  | tag name => rfl
  | not z ih => rfl
  | or z z' ih ih' => rfl

theorem orChain_assoc (x y z : Constraint) :
    x.orChain (y.orChain z) = (x.orChain y).orChain z := by
  induction z with
  | or z z' ih ih' =>
    have hinner : x.orChain (y.orChain z) = (x.orChain y).orChain z := ih
    simp only [orChain, hinner]
  | tag name => rfl
  | not z ih => rfl
  | and z z' ih ih' => rfl

/-! ## 2. What regrouping keeps -/

@[simp] theorem isOr_leftmost (x : Constraint) : x.leftmost.isOr = x.isOr := by
  cases x with
  | tag name => rfl
  | not x => rfl
  | and x y => exact isOr_andChain _ _
  | or x y => exact isOr_orChain _ _

@[simp] theorem isBinary_leftmost (x : Constraint) : x.leftmost.isBinary = x.isBinary := by
  cases x with
  | tag name => rfl
  | not x => rfl
  | and x y => exact isBinary_andChain _ _
  | or x y => exact isBinary_orChain _ _

theorem eval_andChain (ok : String → Bool) (x y : Constraint) :
    (x.andChain y).eval ok = (x.eval ok && y.eval ok) := by
  induction y with
  | and y z ih ih' => simp only [andChain, eval, ih, Bool.and_assoc]
  | tag name => rfl
  | not y ih => rfl
  | or y z ih ih' => rfl

theorem eval_orChain (ok : String → Bool) (x y : Constraint) :
    (x.orChain y).eval ok = (x.eval ok || y.eval ok) := by
  induction y with
  | or y z ih ih' => simp only [orChain, eval, ih, Bool.or_assoc]
  | tag name => rfl
  | not y ih => rfl
  | and y z ih ih' => rfl

/-- **Regrouping keeps the meaning.** -/
theorem eval_leftmost (ok : String → Bool) (x : Constraint) : x.leftmost.eval ok = x.eval ok := by
  induction x with
  | tag name => rfl
  | not x ih => simp only [leftmost, eval, ih]
  | and x y ih ih' => simp only [leftmost, eval, eval_andChain, ih, ih']
  | or x y ih ih' => simp only [leftmost, eval, eval_orChain, ih, ih']

theorem collect_andChain (x y : Constraint) (found : List String) :
    (x.andChain y).collect found = y.collect (x.collect found) := by
  induction y with
  | and y z ih ih' => simp only [andChain, collect, ih]
  | tag name => rfl
  | not y ih => rfl
  | or y z ih ih' => rfl

theorem collect_orChain (x y : Constraint) (found : List String) :
    (x.orChain y).collect found = y.collect (x.collect found) := by
  induction y with
  | or y z ih ih' => simp only [orChain, collect, ih]
  | tag name => rfl
  | not y ih => rfl
  | and y z ih ih' => rfl

theorem collect_leftmost (x : Constraint) (found : List String) :
    x.leftmost.collect found = x.collect found := by
  induction x generalizing found with
  | tag name => rfl
  | not x ih => exact ih found
  | and x y ih ih' => simp only [leftmost, collect, collect_andChain, ih, ih']
  | or x y ih ih' => simp only [leftmost, collect, collect_orChain, ih, ih']

/-- **Regrouping keeps the tags and their order.** -/
theorem tags_leftmost (x : Constraint) : x.leftmost.tags = x.tags :=
  collect_leftmost x []

/-- A chain is written like the conjunction of its parts, as an `&&` inside an `&&` stands without
    parentheses. -/
theorem render_andChain (x y : Constraint) :
    (x.andChain y).render = (Constraint.and x y).render := by
  induction y with
  | and y z ih ih' =>
    simp only [andChain, render, isOr_andChain, ih]
    simp [isOr, parenthesised]
  | tag name => rfl
  | not y ih => rfl
  | or y z ih ih' => rfl

theorem render_orChain (x y : Constraint) :
    (x.orChain y).render = (Constraint.or x y).render := by
  induction y with
  | or y z ih ih' => simp only [orChain, render, ih, List.append_assoc]
  | tag name => rfl
  | not y ih => rfl
  | and y z ih ih' => rfl

/-- **Regrouping keeps the text.** -/
theorem render_leftmost (x : Constraint) : x.leftmost.render = x.render := by
  induction x with
  | tag name => rfl
  | not x ih => simp only [leftmost, render, isBinary_leftmost, ih]
  | and x y ih ih' => simp only [leftmost, render_andChain, render, isOr_leftmost, ih, ih']
  | or x y ih ih' => simp only [leftmost, render_orChain, render, ih, ih']

/-! ## 3. The tokens of a text -/

/-- The tokens, in parentheses where asked for. -/
def grouped (wanted : Bool) (tokens : List Token) : List Token :=
  if wanted then .opening :: (tokens ++ [.closing]) else tokens

/-- The tokens with which a constraint is written. -/
def tokens : Constraint → List Token
  | .tag name => [.tag name]
  | .not x => .negation :: grouped x.isBinary x.tokens
  | .and x y => grouped x.isOr x.tokens ++ .conjunction :: grouped y.isOr y.tokens
  | .or x y => x.tokens ++ .disjunction :: y.tokens

/-- The tokens are spelled in the text behind any gap, before anything that does not go on with a
    last tag. -/
def IsSpelling (tokens : List Token) (text : List Char) : Prop :=
  ∀ gap rest, IsGap gap → (∀ c ∈ rest.head?, isTagChar c = false) →
    Spells tokens (gap ++ (text ++ rest)) rest

theorem isGap_nil : IsGap [] :=
  fun _ h => absurd h List.not_mem_nil

theorem isGap_space : IsGap [' '] := by
  intro c hc
  obtain rfl := List.mem_singleton.mp hc
  rfl

theorem isSpelling_grouped {tokens : List Token} {text : List Char} (wanted : Bool)
    (h : IsSpelling tokens text) :
    IsSpelling (grouped wanted tokens) (parenthesised wanted text) := by
  cases wanted with
  | false => exact h
  | true =>
    intro gap rest hgap hrest
    have hclosing : Spells [.closing] (')' :: rest) rest := spells_singleton trivial
    have hinner : Spells tokens (text ++ ')' :: rest) (')' :: rest) :=
      h [] (')' :: rest) isGap_nil (by simp [isTagChar])
    have hspells := Spells.token gap .opening _ _ _ hgap trivial (hinner.append hclosing)
    simpa [grouped, parenthesised, Token.text] using hspells

/-- Two spellings with an operator and single spaces between them. -/
theorem isSpelling_join {left right : List Token} {text more : List Char} (operator : Token)
    (hends : ∀ next, operator.EndsBefore next) (h : IsSpelling left text)
    (h' : IsSpelling right more) :
    IsSpelling (left ++ operator :: right) (text ++ (' ' :: operator.text ++ ' ' :: more)) := by
  intro gap rest hgap hrest
  have hright : Spells right (' ' :: (more ++ rest)) rest := h' [' '] rest isGap_space hrest
  have hoperator := Spells.token [' '] operator _ _ _ isGap_space (hends _) hright
  have hleft := h gap _ hgap (by simp [isTagChar]) |>.append hoperator
  simpa using hleft

/-- **The tokens that a constraint is written with are spelled in its text.** -/
theorem spells_tokens (x : Constraint) : IsSpelling x.tokens x.render := by
  induction x with
  | tag name =>
    intro gap rest hgap hrest
    exact Spells.token gap (.tag name) [] rest rest hgap hrest (.done rest)
  | not x ih =>
    intro gap rest hgap hrest
    have hinner := isSpelling_grouped x.isBinary ih [] rest isGap_nil hrest
    exact Spells.token gap .negation _ _ rest hgap trivial hinner
  | and x y ih ih' =>
    have hjoin := isSpelling_join .conjunction (fun _ => trivial)
      (isSpelling_grouped x.isOr ih) (isSpelling_grouped y.isOr ih')
    simpa [tokens, render, Token.text] using hjoin
  | or x y ih ih' =>
    have hjoin := isSpelling_join .disjunction (fun _ => trivial) ih ih'
    simpa [tokens, render, Token.text] using hjoin

/-! ## 4. Derivations of what is written -/

/-- What the tokens of a constraint derive at each place at which it can stand: behind `!`, as
    first or later operand of an `&&`, and as first or later operand of an `||`. -/
structure Placed (x : Constraint) : Prop where
  negated : Derives .negation (grouped x.isBinary x.tokens) x.leftmost
  conjunct : Derives .conjunction (grouped x.isOr x.tokens) x.leftmost
  laterConjunct : ∀ before y, Derives .conjunction before y →
    Derives .conjunction (before ++ .conjunction :: grouped x.isOr x.tokens)
      (y.andChain x.leftmost)
  disjunct : Derives .disjunction x.tokens x.leftmost
  laterDisjunct : ∀ before y, Derives .disjunction before y →
    Derives .disjunction (before ++ .disjunction :: x.tokens) (y.orChain x.leftmost)

/-- A disjunction in parentheses can be negated. -/
theorem derives_parentheses {tokens : List Token} {x : Constraint}
    (h : Derives .disjunction tokens x) : Derives .negation (grouped true tokens) x :=
  .ofAtom _ _ (.parentheses tokens x h)

/-- What joins nothing is one operand of a conjunction, and no disjunction. -/
theorem of_not_isBinary {x : Constraint} (h : x.isBinary = false) :
    x.isOr = false ∧ ∀ y : Constraint, y.andChain x.leftmost = .and y x.leftmost := by
  cases x with
  | tag name => exact ⟨rfl, fun _ => rfl⟩
  | not x => exact ⟨rfl, fun _ => rfl⟩
  | and x y => cases h
  | or x y => cases h

/-- What joins nothing stands at every place as it stands behind `!`. -/
theorem placed_of_not_isBinary {x : Constraint} (hbinary : x.isBinary = false)
    (h : Derives .negation x.tokens x.leftmost) : Placed x := by
  obtain ⟨hor, hand⟩ := of_not_isBinary hbinary
  have hconjunct := Derives.ofNegation _ _ h
  constructor
  case negated => rw [hbinary]; exact h
  case conjunct => rw [hor]; exact hconjunct
  case laterConjunct =>
    intro before y hbefore
    rw [hor, hand]
    exact .and before _ y _ hbefore h
  case disjunct => exact .ofConjunction _ _ hconjunct
  case laterDisjunct =>
    intro before y hbefore
    rw [orChain_of_not_isOr y (by rw [isOr_leftmost]; exact hor)]
    exact .or before _ y _ hbefore hconjunct

/-- A conjunction goes on with a chain of `&&` that it stands in; elsewhere it is an operand. -/
theorem placed_and {x y : Constraint} (hx : Placed x) (hy : Placed y) : Placed (.and x y) := by
  have hconjunct : Derives .conjunction (Constraint.and x y).tokens (Constraint.and x y).leftmost :=
    hy.laterConjunct _ _ hx.conjunct
  have hdisjunct := Derives.ofConjunction _ _ hconjunct
  constructor
  case negated => exact derives_parentheses hdisjunct
  case conjunct => exact hconjunct
  case laterConjunct =>
    intro before z hbefore
    have hlonger := hy.laterConjunct _ _ (hx.laterConjunct before z hbefore)
    rw [← andChain_assoc] at hlonger
    simpa [tokens, grouped, isOr, leftmost] using hlonger
  case disjunct => exact hdisjunct
  case laterDisjunct =>
    intro before z hbefore
    rw [orChain_of_not_isOr z (by rw [isOr_leftmost]; rfl)]
    exact .or before _ z _ hbefore hconjunct

/-- A disjunction goes on with a chain of `||` that it stands in; elsewhere it is in parentheses. -/
theorem placed_or {x y : Constraint} (hx : Placed x) (hy : Placed y) : Placed (.or x y) := by
  have hdisjunct : Derives .disjunction (Constraint.or x y).tokens (Constraint.or x y).leftmost :=
    hy.laterDisjunct _ _ hx.disjunct
  have hnegated := derives_parentheses hdisjunct
  constructor
  case negated => exact hnegated
  case conjunct => exact .ofNegation _ _ hnegated
  case laterConjunct =>
    intro before z hbefore
    rw [andChain_of_isOr z (by rw [isOr_leftmost]; rfl)]
    exact .and before _ z _ hbefore hnegated
  case disjunct => exact hdisjunct
  case laterDisjunct =>
    intro before z hbefore
    have hlonger := hy.laterDisjunct _ _ (hx.laterDisjunct before z hbefore)
    rw [← orChain_assoc] at hlonger
    simpa [tokens, leftmost] using hlonger

/-- **Wherever a constraint stands, its tokens derive the regrouped constraint.** -/
theorem placed {x : Constraint} (h : ∀ name, x.Mentions name → isTag name.toList = true) :
    Placed x := by
  induction x with
  | tag name => exact placed_of_not_isBinary rfl (.ofAtom _ _ (.tag name (h name rfl)))
  | not x ih => exact placed_of_not_isBinary rfl (.not _ _ (ih h).negated)
  | and x y ih ih' =>
    exact placed_and (ih fun name hname => h name (Or.inl hname))
      (ih' fun name hname => h name (Or.inr hname))
  | or x y ih ih' =>
    exact placed_or (ih fun name hname => h name (Or.inl hname))
      (ih' fun name hname => h name (Or.inr hname))

/-! ## 5. Writing and reading -/

/-- The text of a constraint over tags writes the regrouped constraint. -/
theorem writes_render {x : Constraint} (h : ∀ name, x.Mentions name → isTag name.toList = true) :
    Writes x.render x.leftmost := by
  have hspells : Spells x.tokens ([] ++ (x.render ++ [])) [] :=
    spells_tokens x [] [] isGap_nil (fun _ hc => absurd hc (by simp))
  rw [List.nil_append, List.append_nil] at hspells
  exact ⟨x.tokens, [], hspells, isGap_nil, (placed h).disjunct⟩

/-- **What is written is read back with its meaning, its tags and its text.** It is the constraint
    whose chains are grouped to the left. -/
theorem read_toText {x : Constraint} (h : ∀ name, x.Mentions name → isTag name.toList = true) :
    ∃ y, read x.toText.toList = .ok y ∧ (∀ ok, y.eval ok = x.eval ok) ∧ y.tags = x.tags ∧
      y.toText = x.toText := by
  refine ⟨x.leftmost, ?_, fun ok => eval_leftmost ok x, tags_leftmost x, ?_⟩
  · have htext : x.toText.toList = x.render := String.toList_ofList
    rw [htext]
    exact read_eq_ok_iff.mpr (writes_render h)
  · exact congrArg String.ofList (render_leftmost x)

/-- A conjunction grouped to the right, with a chain of `||` in it that is grouped to the right as
    well: both groupings change. -/
theorem read_toText_regrouped :
    let x : Constraint := .and (.tag "linux") (.and (.or (.tag "amd64")
      (.or (.not (.and (.tag "cgo") (.tag "go1.18"))) (.tag "race"))) (.not (.not (.tag "unix"))))
    (∀ name, x.Mentions name → isTag name.toList = true) ∧
      ∃ y, read x.toText.toList = .ok y ∧ (∀ ok, y.eval ok = x.eval ok) ∧ y.tags = x.tags ∧
        y.toText = x.toText := by
  intro x
  have htags : ∀ name, x.Mentions name → isTag name.toList = true := by
    intro name hname
    simp only [x, Mentions] at hname
    rcases hname with rfl | (rfl | (rfl | rfl) | rfl) | rfl <;> decide
  exact ⟨htags, read_toText htags⟩

end TestScout.Constraint
