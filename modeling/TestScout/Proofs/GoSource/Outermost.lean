import Mathlib.Data.List.Basic
import TestScout.GoSource.Node

/-!
# The outermost declaration around a place

The search for the function around a place keeps the nodes that are still to be visited in a list,
and looks right below the root before it looks anywhere. Neither shows in what it finds: the nodes
are visited in the order of the recursion, and where declarations stand apart, unless one stands
inside the other, both searches find the name of the outermost declaration around the place. A node
is told by its address, since a tree may hold the same node twice. Main statements:

* `visits_firstAmong`: the search ends, and visits the nodes before those inside them and these from
  left to right;
* `firstAmong_eq`: it finds the first name in this order;
* `enclosing_eq_none_iff`: nothing is found exactly when no named declaration holds the place;
* `enclosing_eq_outermost`: both searches find the outermost named declaration around the place.
-/

namespace TestScout.GoSource.Node

/-! ## 1. Addresses -/

/-- The node at an address below a node: the numbers of the children on the way there. -/
def at? : Node → List Nat → Option Node
  | node, [] => some node
  | node, i :: address => node.children[i]?.bind fun child => child.at? address

@[simp] theorem at?_nil (node : Node) : node.at? [] = some node := rfl

theorem at?_cons_eq_some_iff {node found : Node} {i : Nat} {address : List Nat} :
    node.at? (i :: address) = some found ↔
      ∃ child, node.children[i]? = some child ∧ child.at? address = some found :=
  Option.bind_eq_some_iff

/-- The way to a node may be cut anywhere. -/
theorem at?_append (node : Node) (front back : List Nat) :
    node.at? (front ++ back) = (node.at? front).bind fun found => found.at? back := by
  induction front generalizing node with
  | nil => rfl
  | cons i front ih =>
    show (node.children[i]?.bind fun child => child.at? (front ++ back)) = _
    simp only [ih, at?, Option.bind_assoc]

mutual

/-- The nodes of a tree with their addresses: a node before those inside it, and these from left to
    right. -/
def preorder : Node → List (List Nat × Node)
  | .mk label children => ([], .mk label children) :: preorders 0 children

/-- The nodes of several trees, the first of which has the number `i`. -/
def preorders (i : Nat) : List Node → List (List Nat × Node)
  | [] => []
  | node :: rest =>
    node.preorder.map (fun entry => (i :: entry.1, entry.2)) ++ preorders (i + 1) rest

end

/-- The nodes of a tree: a node before those inside it, and these from left to right. -/
def nodes (node : Node) : List Node :=
  node.preorder.map Prod.snd

theorem preorder_eq (node : Node) : node.preorder = ([], node) :: preorders 0 node.children := by
  cases node
  rfl

theorem map_snd_preorders (i : Nat) (trees : List Node) :
    (preorders i trees).map Prod.snd = trees.flatMap nodes := by
  induction trees generalizing i with
  | nil => rfl
  | cons node rest ih =>
    rw [preorders, List.map_append, List.map_map, ih, List.flatMap_cons]
    rfl

/-- **The order of the recursion.** -/
theorem nodes_eq (node : Node) : node.nodes = node :: node.children.flatMap nodes := by
  rw [nodes, preorder_eq, List.map_cons, map_snd_preorders]

theorem mem_preorders {i : Nat} {trees : List Node} {entry : List Nat × Node} :
    entry ∈ preorders i trees ↔ ∃ j address child, entry.1 = (i + j) :: address ∧
      trees[j]? = some child ∧ (address, entry.2) ∈ child.preorder := by
  induction trees generalizing i with
  | nil => simp [preorders]
  | cons node rest ih =>
    rw [preorders, List.mem_append, List.mem_map, ih]
    constructor
    · rintro (⟨⟨address, found⟩, hfound, rfl⟩ | ⟨j, address, child, haddress, hchild, hfound⟩)
      · exact ⟨0, address, node, rfl, rfl, hfound⟩
      · refine ⟨j + 1, address, child, ?_, hchild, hfound⟩
        rw [haddress, Nat.add_assoc, Nat.add_comm 1]
    · rintro ⟨j, address, child, haddress, hchild, hfound⟩
      cases j with
      | zero =>
        obtain rfl : node = child := Option.some.inj hchild
        exact Or.inl ⟨(address, entry.2), hfound, Prod.ext haddress.symm rfl⟩
      | succ j =>
        refine Or.inr ⟨j, address, child, ?_, hchild, hfound⟩
        rw [haddress, Nat.add_assoc, Nat.add_comm 1]

/-- **Every node is listed, under its address.** -/
theorem mem_preorder {node found : Node} {address : List Nat} :
    (address, found) ∈ node.preorder ↔ node.at? address = some found := by
  induction address generalizing node with
  | nil =>
    rw [preorder_eq, List.mem_cons, mem_preorders, at?_nil]
    simp [eq_comm]
  | cons i address ih =>
    rw [preorder_eq, List.mem_cons, mem_preorders, at?_cons_eq_some_iff]
    simp [ih]

/-- What holds of every node of a tree can be checked along the list. -/
theorem forall_at?_iff {node : Node} {p : List Nat → Node → Prop} :
    (∀ address found, node.at? address = some found → p address found) ↔
      ∀ entry ∈ node.preorder, p entry.1 entry.2 :=
  ⟨fun h entry hentry => h entry.1 entry.2 (mem_preorder.mp hentry),
    fun h address found hfound => h (address, found) (mem_preorder.mpr hfound)⟩

mutual

/-- **What stands above a node is listed before it.** -/
theorem pairwise_preorder : ∀ node : Node,
    node.preorder.Pairwise fun earlier later => ¬ later.1 <+: earlier.1
  | .mk label children => by
    rw [preorder_eq, List.pairwise_cons]
    refine ⟨fun entry hentry hup => ?_, pairwise_preorders 0 children⟩
    obtain ⟨j, address, child, haddress, -⟩ := mem_preorders.mp hentry
    rw [haddress] at hup
    exact List.cons_ne_nil _ _ (List.prefix_nil.mp hup)

theorem pairwise_preorders (i : Nat) : ∀ trees : List Node,
    (preorders i trees).Pairwise fun earlier later => ¬ later.1 <+: earlier.1
  | [] => .nil
  | node :: rest => by
    rw [preorders, List.pairwise_append, List.pairwise_map]
    refine ⟨?_, pairwise_preorders (i + 1) rest, ?_⟩
    · refine (pairwise_preorder node).imp fun happart hup => ?_
      exact happart (List.cons_prefix_cons.mp hup).2
    · intro earlier hearlier later hlater hup
      obtain ⟨entry, -, rfl⟩ := List.mem_map.mp hearlier
      obtain ⟨j, address, child, haddress, -⟩ := mem_preorders.mp hlater
      rw [haddress] at hup
      have hsame : i + 1 + j = i := (List.cons_prefix_cons.mp hup).1
      omega

end

/-! ## 2. The search -/

/-- A run of the search: the nodes still to be visited, those that it visits in turn, and the name
    that it ends with. -/
inductive Visits (place : Nat) : List Node → List Node → Option String → Prop where
  | ended : Visits place [] [] none
  | found {node : Node} {rest : List Node} {name : String}
      (h : node.enclosing? place = some name) : Visits place (node :: rest) [node] (some name)
  | inside {node : Node} {rest visited : List Node} {name : Option String}
      (h : node.enclosing? place = none)
      (hrest : Visits place (node.children ++ rest) visited name) :
      Visits place (node :: rest) (node :: visited) name

theorem flatMap_nodes_cons (node : Node) (rest : List Node) :
    (node :: rest).flatMap nodes = node :: (node.children ++ rest).flatMap nodes := by
  rw [List.flatMap_cons, nodes_eq, List.cons_append, List.flatMap_append]

/-- **The search ends, and visits the nodes in the order of the recursion**: all of them, unless it
    finds a name. -/
theorem visits_firstAmong (place : Nat) (pending : List Node) :
    ∃ visited, Visits place pending visited (firstAmong place pending) ∧
      visited <+: pending.flatMap nodes ∧
      (firstAmong place pending = none → visited = pending.flatMap nodes) := by
  induction pending using firstAmong.induct place with
  | case1 =>
    rw [firstAmong_nil]
    exact ⟨[], .ended, List.prefix_rfl, fun _ => rfl⟩
  | case2 node rest name hname =>
    rw [firstAmong_of_enclosing hname, flatMap_nodes_cons]
    exact ⟨[node], .found hname, List.cons_prefix_cons.mpr ⟨rfl, List.nil_prefix⟩,
      fun h => absurd h (Option.some_ne_none name)⟩
  | case3 node rest hnone ih =>
    obtain ⟨visited, hvisits, hfront, hall⟩ := ih
    rw [firstAmong, hnone, flatMap_nodes_cons]
    refine ⟨node :: visited, .inside hnone hvisits, List.cons_prefix_cons.mpr ⟨rfl, hfront⟩, ?_⟩
    intro h
    rw [hall h]

/-- **The search finds the first name in the order of the recursion.** -/
theorem firstAmong_eq (place : Nat) (pending : List Node) :
    firstAmong place pending = (pending.flatMap nodes).findSome? (enclosing? place) := by
  induction pending using firstAmong.induct place with
  | case1 => rw [firstAmong_nil]; rfl
  | case2 node rest name hname =>
    rw [firstAmong_of_enclosing hname, flatMap_nodes_cons, List.findSome?_cons, hname]
  | case3 node rest hnone ih =>
    rw [firstAmong, hnone, flatMap_nodes_cons, List.findSome?_cons, hnone]
    exact ih

theorem firstEnclosing_eq (place : Nat) (root : Node) :
    root.firstEnclosing place =
      root.preorder.findSome? fun entry => entry.2.enclosing? place := by
  rw [firstEnclosing, firstAmong_eq, List.flatMap_singleton, nodes, List.findSome?_map]
  rfl

/-! ## 3. Declarations around a place -/

/-- The node is a named declaration whose range holds the place, its end included. -/
structure Holds (place : Nat) (node : Node) : Prop where
  declaration : node.IsDeclaration
  named : node.name.isSome
  start_le : node.start ≤ place
  le_stop : place ≤ node.stop

theorem enclosing?_eq_some_iff {place : Nat} {node : Node} {name : String} :
    node.enclosing? place = some name ↔ node.Holds place ∧ node.name = some name := by
  unfold enclosing?
  constructor
  · intro h
    split at h
    · rename_i hrange
      exact ⟨⟨hrange.1, Option.isSome_of_eq_some h, hrange.2.1, hrange.2.2⟩, h⟩
    · exact absurd h (Option.some_ne_none name).symm
  · rintro ⟨hholds, hname⟩
    rw [if_pos ⟨hholds.declaration, hholds.start_le, hholds.le_stop⟩, hname]

theorem enclosing?_eq_none_iff {place : Nat} {node : Node} :
    node.enclosing? place = none ↔ ¬ node.Holds place := by
  constructor
  · intro hnone hholds
    obtain ⟨name, hname⟩ := Option.isSome_iff_exists.mp hholds.named
    rw [enclosing?_eq_some_iff.mpr ⟨hholds, hname⟩] at hnone
    exact Option.some_ne_none name hnone
  · intro hholds
    refine Option.eq_none_iff_forall_ne_some.mpr fun name hname => ?_
    exact hholds (enclosing?_eq_some_iff.mp hname).1

/-- **The search finds nothing exactly when no named declaration of the tree holds the place.** -/
theorem firstEnclosing_eq_none_iff {place : Nat} {root : Node} :
    root.firstEnclosing place = none ↔
      ∀ address node, root.at? address = some node → ¬ node.Holds place := by
  rw [firstEnclosing_eq, List.findSome?_eq_none_iff, forall_at?_iff]
  simp only [enclosing?_eq_none_iff]

/-- What is found right below the root is a child of it. -/
theorem exists_of_topEnclosing {place : Nat} {root : Node} {name : String}
    (h : root.topEnclosing place = some name) :
    ∃ i node, root.at? [i] = some node ∧ node.Holds place ∧ node.name = some name := by
  obtain ⟨node, hnode, hname⟩ := List.exists_of_findSome?_eq_some h
  obtain ⟨i, hi⟩ := List.mem_iff_getElem?.mp hnode
  obtain ⟨hholds, hname⟩ := enclosing?_eq_some_iff.mp hname
  exact ⟨i, node, at?_cons_eq_some_iff.mpr ⟨node, hi, rfl⟩, hholds, hname⟩

/-- What is found anywhere is the name of a declaration of the tree that holds the place. -/
theorem exists_of_enclosing {place : Nat} {root : Node} {name : String}
    (h : root.enclosing place = some name) :
    ∃ address node, root.at? address = some node ∧ node.Holds place ∧ node.name = some name := by
  rcases Option.or_eq_some_iff.mp h with htop | ⟨-, hfirst⟩
  · obtain ⟨i, node, hfound⟩ := exists_of_topEnclosing htop
    exact ⟨[i], node, hfound⟩
  · rw [firstEnclosing_eq] at hfirst
    obtain ⟨⟨address, node⟩, hentry, hname⟩ := List.exists_of_findSome?_eq_some hfirst
    exact ⟨address, node, mem_preorder.mp hentry, enclosing?_eq_some_iff.mp hname⟩

/-- **Looking right below the root first adds nothing to what there is to find.** -/
theorem enclosing_eq_none_iff {place : Nat} {root : Node} :
    root.enclosing place = none ↔
      ∀ address node, root.at? address = some node → ¬ node.Holds place := by
  rw [enclosing, Option.or_eq_none_iff, firstEnclosing_eq_none_iff, and_iff_right_iff_imp]
  intro hnone
  refine Option.eq_none_iff_forall_ne_some.mpr fun name hname => ?_
  obtain ⟨i, node, hnode, hholds, -⟩ := exists_of_topEnclosing hname
  exact hnone [i] node hnode hholds

/-! ## 4. The outermost one -/

/-- Every node stands inside the one above it. -/
def Nested (root : Node) : Prop :=
  ∀ address node, root.at? address = some node →
    ∀ child ∈ node.children, node.start ≤ child.start ∧ child.stop ≤ node.stop

/-- Two declarations do not touch, unless one is above the other. -/
def DeclarationsApart (root : Node) : Prop :=
  ∀ address node, root.at? address = some node → node.IsDeclaration →
    ∀ other found, root.at? other = some found → found.IsDeclaration →
      ¬ address <+: other → ¬ other <+: address → node.stop < found.start ∨ found.stop < node.start

instance (root : Node) : Decidable root.Nested :=
  decidable_of_iff _ forall_at?_iff.symm

instance (root : Node) : Decidable root.DeclarationsApart :=
  decidable_of_iff
    (∀ entry ∈ root.preorder, entry.2.IsDeclaration →
      ∀ other ∈ root.preorder, other.2.IsDeclaration → ¬ entry.1 <+: other.1 →
        ¬ other.1 <+: entry.1 → entry.2.stop < other.2.start ∨ other.2.stop < entry.2.start)
    (by simp only [DeclarationsApart, forall_at?_iff])

/-- The named declaration around the place that all others stand inside. -/
structure IsOutermost (root : Node) (place : Nat) (address : List Nat) (node : Node) : Prop where
  there : root.at? address = some node
  holds : node.Holds place
  above : ∀ other found, root.at? other = some found → found.Holds place →
    address <+: other ∧ node.start ≤ found.start ∧ found.stop ≤ node.stop

theorem IsOutermost.unique {root : Node} {place : Nat} {address other : List Nat}
    {node found : Node} (h : IsOutermost root place address node)
    (h' : IsOutermost root place other found) : address = other ∧ node = found := by
  have hdown : address <+: other := (h.above other found h'.there h'.holds).1
  have hup : other <+: address := (h'.above address node h.there h.holds).1
  obtain rfl : address = other :=
    hdown.eq_of_length (Nat.le_antisymm hdown.length_le hup.length_le)
  exact ⟨rfl, Option.some.inj (h.there.symm.trans h'.there)⟩

section Outermost

variable {root : Node} {place : Nat}

/-- What stands below a node stands inside it. -/
theorem Nested.inside (h : root.Nested) {front back : List Nat} {node found : Node}
    (hnode : root.at? front = some node) (hfound : node.at? back = some found) :
    node.start ≤ found.start ∧ found.stop ≤ node.stop := by
  induction back generalizing front node with
  | nil =>
    obtain rfl : node = found := Option.some.inj hfound
    exact ⟨Nat.le_refl _, Nat.le_refl _⟩
  | cons i back ih =>
    obtain ⟨child, hchild, hbelow⟩ := at?_cons_eq_some_iff.mp hfound
    have hthere : root.at? (front ++ [i]) = some child := by
      rw [at?_append, hnode, Option.bind_some]
      exact at?_cons_eq_some_iff.mpr ⟨child, hchild, rfl⟩
    have hstep := h front node hnode child (List.mem_of_getElem? hchild)
    have hrest := ih hthere hbelow
    exact ⟨Nat.le_trans hstep.1 hrest.1, Nat.le_trans hrest.2 hstep.2⟩

/-- Declarations that hold one place touch, so one of two is above the other. -/
theorem DeclarationsApart.above_or_below (h : root.DeclarationsApart) {address other : List Nat}
    {node found : Node} (hnode : root.at? address = some node) (hholds : node.Holds place)
    (hfound : root.at? other = some found) (hholds' : found.Holds place) :
    address <+: other ∨ other <+: address := by
  by_contra hnot
  obtain ⟨hbelow, habove⟩ := not_or.mp hnot
  have hstart : node.start ≤ place ∧ found.start ≤ place := ⟨hholds.start_le, hholds'.start_le⟩
  have hstop : place ≤ node.stop ∧ place ≤ found.stop := ⟨hholds.le_stop, hholds'.le_stop⟩
  have happart := h address node hnode hholds.declaration other found hfound
    hholds'.declaration hbelow habove
  omega

/-- Nothing above the declaration that the search comes to first holds the place. -/
theorem exists_first {name : String} (h : root.firstEnclosing place = some name) :
    ∃ address node, root.at? address = some node ∧ node.Holds place ∧ node.name = some name ∧
      ∀ other found, root.at? other = some found → found.Holds place → other <+: address →
        other = address := by
  rw [firstEnclosing_eq] at h
  obtain ⟨before, ⟨address, node⟩, behind, hsplit, hfound, hbefore⟩ :=
    List.findSome?_eq_some_iff.mp h
  obtain ⟨hholds, hname⟩ := enclosing?_eq_some_iff.mp hfound
  have hmem : (address, node) ∈ root.preorder := by
    rw [hsplit]
    exact List.mem_append_right _ List.mem_cons_self
  refine ⟨address, node, mem_preorder.mp hmem, hholds, hname, ?_⟩
  intro other found hother hholds' hup
  have hother : (other, found) ∈ before ++ (address, node) :: behind := by
    rw [← hsplit]
    exact mem_preorder.mpr hother
  rcases List.mem_append.mp hother with hearlier | hlater
  · exact absurd hholds' (enclosing?_eq_none_iff.mp (hbefore _ hearlier))
  · rcases List.mem_cons.mp hlater with hsame | hlater
    · exact congrArg Prod.fst hsame
    · -- what is above a node is listed before it
      have horder := root.pairwise_preorder
      rw [hsplit, List.pairwise_append, List.pairwise_cons] at horder
      exact absurd hup (horder.2.1.1 (other, found) hlater)

/-- **The first name that the search comes to is that of the outermost declaration.** -/
theorem exists_isOutermost (hnested : root.Nested) (hapart : root.DeclarationsApart)
    {name : String} (h : root.firstEnclosing place = some name) :
    ∃ address node, IsOutermost root place address node ∧ node.name = some name := by
  obtain ⟨address, node, hthere, hholds, hname, hfirst⟩ := exists_first h
  refine ⟨address, node, ⟨hthere, hholds, fun other found hother hholds' => ?_⟩, hname⟩
  have habove : address <+: other := by
    rcases hapart.above_or_below hthere hholds hother hholds' with habove | hbelow
    · exact habove
    · obtain rfl : other = address := hfirst other found hother hholds' hbelow
      exact List.prefix_rfl
  obtain ⟨back, rfl⟩ := habove
  rw [at?_append, hthere, Option.bind_some] at hother
  exact ⟨List.prefix_append _ _, hnested.inside hthere hother⟩

/-- The outermost declaration around a place, if it is right below the root, is what is found
    there. -/
theorem topEnclosing_eq (hroot : ¬ root.IsDeclaration) {name found : String}
    {address : List Nat} {node : Node} (houter : IsOutermost root place address node)
    (hname : node.name = some name) (h : root.topEnclosing place = some found) :
    found = name := by
  obtain ⟨i, child, hchild, hholds, hfound⟩ := exists_of_topEnclosing h
  have habove : address <+: [i] := (houter.above [i] child hchild hholds).1
  rcases List.prefix_cons_iff.mp habove with rfl | ⟨rest, rfl, hrest⟩
  · have hself : root = node := Option.some.inj houter.there
    exact absurd (hself ▸ houter.holds.declaration) hroot
  · obtain rfl := List.prefix_nil.mp hrest
    obtain rfl : node = child := Option.some.inj (houter.there.symm.trans hchild)
    exact Option.some.inj (hfound.symm.trans hname)

end Outermost

/-- **Where declarations stand apart, unless one is above the other, looking right below the root
    first finds the same as the whole search**, and both find the name of the outermost named
    declaration around the place, if there is one. The search ends, and visits the nodes in the
    order of the recursion up to the one that it finds. -/
theorem enclosing_eq_outermost {root : Node} (hroot : ¬ root.IsDeclaration)
    (hnested : root.Nested) (hapart : root.DeclarationsApart) (place : Nat) :
    root.enclosing place = root.firstEnclosing place ∧
      (∀ name, root.firstEnclosing place = some name ↔
        ∃ address node, IsOutermost root place address node ∧ node.name = some name) ∧
      (root.firstEnclosing place = none ↔
        ∀ address node, root.at? address = some node → ¬ node.Holds place) ∧
      ∃ visited, Visits place [root] visited (root.firstEnclosing place) ∧
        visited <+: root.nodes ∧ (root.firstEnclosing place = none → visited = root.nodes) := by
  have hnone : root.firstEnclosing place = none ↔
      ∀ address node, root.at? address = some node → ¬ node.Holds place :=
    firstEnclosing_eq_none_iff
  refine ⟨?_, fun name => ⟨exists_isOutermost hnested hapart, ?_⟩, hnone, ?_⟩
  · cases htop : root.topEnclosing place with
    | none => rw [enclosing, htop, Option.none_or]
    | some found =>
      rw [enclosing, htop, Option.some_or]
      cases hfirst : root.firstEnclosing place with
      | none =>
        obtain ⟨i, node, hnode, hholds, -⟩ := exists_of_topEnclosing htop
        exact absurd hholds (hnone.mp hfirst [i] node hnode)
      | some name =>
        obtain ⟨address, node, houter, hname⟩ := exists_isOutermost hnested hapart hfirst
        rw [topEnclosing_eq hroot houter hname htop]
  · rintro ⟨address, node, houter, hname⟩
    cases hfirst : root.firstEnclosing place with
    | none => exact absurd houter.holds (hnone.mp hfirst address node houter.there)
    | some found =>
      obtain ⟨other, node', houter', hname'⟩ := exists_isOutermost hnested hapart hfirst
      obtain ⟨-, rfl⟩ := houter.unique houter'
      rw [← hname', hname]
  · obtain ⟨visited, hvisited⟩ := visits_firstAmong place [root]
    rw [List.flatMap_singleton] at hvisited
    exact ⟨visited, hvisited⟩

/-- A node of a kind between two offsets, with a name if it has one. -/
def spanning (kind : String) (start stop : Nat) (name : Option String) (children : List Node) :
    Node :=
  .mk { kind := kind, first := ⟨start, 0⟩, column := start, last := ⟨stop, 0⟩, text := "",
        nameField := name, isError := kind = "ERROR", isMissing := false, hasError := true }
    children

/-- The tree of a broken source: a declaration with another one in its body and one without a name,
    all below a node of an error. -/
def brokenTree : Node :=
  spanning "source_file" 0 90 none
    [spanning "ERROR" 0 60 none
      [spanning "function_declaration" 0 40 (some "A")
        [spanning "block" 8 40 none [spanning "method_declaration" 12 30 (some "Inner") []]],
        spanning "function_declaration" 44 58 none []],
      spanning "function_declaration" 62 90 (some "B") []]

theorem enclosing_eq_outermost_brokenTree :
    ¬ brokenTree.IsDeclaration ∧ brokenTree.Nested ∧ brokenTree.DeclarationsApart ∧
      brokenTree.enclosing 20 = brokenTree.firstEnclosing 20 ∧
      (∀ name, brokenTree.firstEnclosing 20 = some name ↔
        ∃ address node, IsOutermost brokenTree 20 address node ∧ node.name = some name) ∧
      (brokenTree.firstEnclosing 20 = none ↔
        ∀ address node, brokenTree.at? address = some node → ¬ node.Holds 20) ∧
      ∃ visited, Visits 20 [brokenTree] visited (brokenTree.firstEnclosing 20) ∧
        visited <+: brokenTree.nodes ∧
        (brokenTree.firstEnclosing 20 = none → visited = brokenTree.nodes) := by
  have hroot : ¬ brokenTree.IsDeclaration := by decide
  have hnested : brokenTree.Nested := by decide
  have hapart : brokenTree.DeclarationsApart := by decide
  exact ⟨hroot, hnested, hapart, enclosing_eq_outermost hroot hnested hapart 20⟩

/-- Where two declarations touch, looking right below the root first makes a difference. -/
example :
    let tree : Node := spanning "source_file" 0 20 none
      [spanning "ERROR" 0 10 none [spanning "function_declaration" 0 10 (some "A") []],
        spanning "function_declaration" 10 20 (some "B") []]
    tree.enclosing 10 = some "B" ∧ tree.firstEnclosing 10 = some "A" := by
  simp only [enclosing, firstEnclosing_eq]
  decide

end TestScout.GoSource.Node
