import Mathlib.Data.List.Forall2

/-!
# Facts about lists

What several parts of the development need of lists and say nothing about the program with: where a
list is cut, what a search finds, two lists side by side, and names in order.
-/

namespace TestScout

variable {α β ε : Type} {R : α → β → Prop} {P : α → Prop} {Q : β → Prop} {xs : List α} {ys : List β}

/-! ## 1. Cutting -/

/-- A list with one more element is cut at that element or before it. -/
theorem concat_eq_append_cons_iff {before behind : List α} {x last : α} :
    xs ++ [last] = before ++ x :: behind ↔
      xs = before ∧ last = x ∧ behind = [] ∨
        ∃ rest, behind = rest ++ [last] ∧ xs = before ++ x :: rest := by
  rcases List.eq_nil_or_concat' behind with rfl | ⟨rest, other, rfl⟩
  · simp
  · constructor
    · intro h
      rw [← List.cons_append, ← List.append_assoc] at h
      obtain ⟨hxs, hlast⟩ := List.append_inj' h rfl
      exact Or.inr ⟨rest, by rw [hlast], hxs⟩
    · intro h
      rcases h with ⟨-, -, hnil⟩ | ⟨kept, hkept, rfl⟩
      · simp at hnil
      · rw [hkept]
        simp

/-! ## 2. Searching -/

/-- Where two conditions agree on all that comes before a hit of the first, and the second holds at
    every such hit, they find the same. -/
theorem find?_of_takeWhile {p q : α → Bool}
    (hbefore : ∀ x ∈ xs.takeWhile (!p ·), q x = p x) (hhit : ∀ x ∈ xs, p x = true → q x = true) :
    xs.find? q = xs.find? p := by
  induction xs with
  | nil => rfl
  | cons x rest ih =>
    rw [List.find?_cons, List.find?_cons]
    cases hx : p x with
    | true => rw [hhit x List.mem_cons_self hx]
    | false =>
      rw [List.takeWhile_cons, if_pos (by simp [hx])] at hbefore
      rw [hbefore x List.mem_cons_self, hx]
      exact ih (fun y hy => hbefore y (List.mem_cons_of_mem _ hy))
        fun y hy => hhit y (List.mem_cons_of_mem _ hy)

theorem find?_map_congr {f g : α → β} {q : β → Bool}
    (h : ∀ x ∈ xs, f x = g x ∨ q (f x) = false ∧ q (g x) = false) :
    (xs.map f).find? q = (xs.map g).find? q := by
  induction xs with
  | nil => rfl
  | cons x rest ih =>
    have hrest := ih fun y hy => h y (List.mem_cons_of_mem _ hy)
    rw [List.map_cons, List.map_cons, List.find?_cons, List.find?_cons, hrest]
    rcases h x List.mem_cons_self with hsame | ⟨hf, hg⟩
    · rw [hsame]
    · rw [hf, hg]

/-- A name and its value between others count for that name only. -/
theorem lookup_append_cons_of_ne {before behind : List (String × α)}
    {name other : String} (value : α) (hne : other ≠ name) :
    (before ++ (name, value) :: behind).lookup other = (before ++ behind).lookup other := by
  have hbeq : (other == name) = false := by simpa using hne
  rw [List.lookup_append, List.lookup_append, List.lookup_cons, hbeq]

/-- They count unless the name stands before them. -/
theorem lookup_append_cons {before behind : List (String × α)} {name : String}
    (value : α) (hnew : name ∉ before.map (·.1)) (other : String) :
    (before ++ (name, value) :: behind).lookup other =
      if other = name then some value else (before ++ behind).lookup other := by
  by_cases heq : other = name
  · subst heq
    have hnone : before.lookup other = none := by
      rw [List.lookup_eq_none_iff]
      intro binding hbinding
      have hne : other ≠ binding.1 := fun e => hnew (e ▸ List.mem_map_of_mem hbinding)
      simpa using hne
    rw [List.lookup_append, hnone, Option.none_or, List.lookup_cons_self, if_pos rfl]
  · rw [lookup_append_cons_of_ne value heq, if_neg heq]

/-! ## 3. Side by side -/

theorem mapM_eq_ok_iff {f : α → Except ε β} :
    xs.mapM f = .ok ys ↔ List.Forall₂ (fun x y => f x = .ok y) xs ys := by
  induction xs generalizing ys with
  | nil =>
    rw [List.mapM_nil, List.forall₂_nil_left_iff]
    exact ⟨fun h => (Except.ok.inj h).symm, fun h => congrArg Except.ok h.symm⟩
  | cons x xs ih =>
    rw [List.mapM_cons, List.forall₂_cons_left_iff]
    constructor
    · intro h
      cases hx : f x with
      | error e =>
        rw [hx] at h
        cases h
      | ok y =>
        cases hxs : xs.mapM f with
        | error e =>
          rw [hx, hxs] at h
          cases h
        | ok more =>
          rw [hx, hxs] at h
          exact ⟨y, more, rfl, ih.mp hxs, (Except.ok.inj h).symm⟩
    · rintro ⟨y, more, hx, hmore, rfl⟩
      simp only [hx, ih.mpr hmore]
      rfl

theorem exists_of_mapM_eq_error {f : α → Except ε β} {e : ε} (h : xs.mapM f = .error e) :
    ∃ x ∈ xs, f x = .error e := by
  induction xs with
  | nil => cases h
  | cons x xs ih =>
    rw [List.mapM_cons] at h
    cases hx : f x with
    | error e' =>
      rw [hx] at h
      obtain rfl := Except.error.inj h
      exact ⟨x, List.mem_cons_self, hx⟩
    | ok y =>
      cases hxs : xs.mapM f with
      | error e' =>
        rw [hx, hxs] at h
        obtain rfl := Except.error.inj h
        obtain ⟨z, hmem, hz⟩ := ih hxs
        exact ⟨z, List.mem_cons_of_mem x hmem, hz⟩
      | ok more =>
        rw [hx, hxs] at h
        cases h

theorem exists_forall₂_iff : (∃ ys, List.Forall₂ R xs ys) ↔ ∀ x ∈ xs, ∃ y, R x y := by
  induction xs with
  | nil => simp
  | cons x xs ih =>
    rw [List.forall_mem_cons, ← ih]
    constructor
    · rintro ⟨_, h⟩
      obtain ⟨y, more, hx, hmore, -⟩ := List.forall₂_cons_left_iff.mp h
      exact ⟨⟨y, hx⟩, more, hmore⟩
    · rintro ⟨⟨y, hx⟩, more, hmore⟩
      exact ⟨y :: more, .cons hx hmore⟩

theorem forall_mem_iff_of_forall₂ (h : List.Forall₂ R xs ys) (hiff : ∀ x y, R x y → (P x ↔ Q y)) :
    (∀ x ∈ xs, P x) ↔ ∀ y ∈ ys, Q y := by
  induction h with
  | nil => simp
  | cons hx _ ih => rw [List.forall_mem_cons, List.forall_mem_cons, ih, hiff _ _ hx]

theorem exists_mem_iff_of_forall₂ (h : List.Forall₂ R xs ys) (hiff : ∀ x y, R x y → (P x ↔ Q y)) :
    (∃ x ∈ xs, P x) ↔ ∃ y ∈ ys, Q y := by
  induction h with
  | nil => simp
  | cons hx _ ih => rw [List.exists_mem_cons_iff, List.exists_mem_cons_iff, ih, hiff _ _ hx]

theorem forall₂_append_right_iff {zs : List β} :
    List.Forall₂ R xs (ys ++ zs) ↔
      ∃ before behind, xs = before ++ behind ∧ List.Forall₂ R before ys ∧
        List.Forall₂ R behind zs := by
  constructor
  · intro h
    exact ⟨_, _, (List.take_append_drop ys.length xs).symm, List.forall₂_take_append _ _ _ h,
      List.forall₂_drop_append _ _ _ h⟩
  · intro h
    obtain ⟨before, behind, rfl, hbefore, hbehind⟩ := h
    exact List.rel_append hbefore hbehind

/-! ## 4. Names in order -/

theorem pairwise_mergeSort_le (names : List String) : names.mergeSort.Pairwise (· ≤ ·) := by
  have htrans : ∀ x y z : String, decide (x ≤ y) → decide (y ≤ z) → decide (x ≤ z) := by
    intro x y z hxy hyz
    rw [decide_eq_true_iff] at hxy hyz ⊢
    exact String.le_trans hxy hyz
  have htotal : ∀ x y : String, decide (x ≤ y) || decide (y ≤ x) := by
    intro x y
    rw [Bool.or_eq_true, decide_eq_true_iff, decide_eq_true_iff]
    exact String.le_total x y
  exact (List.pairwise_mergeSort htrans htotal _).imp of_decide_eq_true

/-- One more name stands between the others when they are put in order. -/
theorem exists_mergeSort_insert (front back : List String) (name : String) :
    ∃ before after, (front ++ back).mergeSort = before ++ after ∧
      (front ++ name :: back).mergeSort = before ++ name :: after := by
  have hperm : (front ++ name :: back).mergeSort.Perm (name :: (front ++ back).mergeSort) :=
    (List.mergeSort_perm _ _).trans
      (List.perm_middle.trans ((List.mergeSort_perm _ _).symm.cons name))
  obtain ⟨before, after, hsplit⟩ := List.append_of_mem (hperm.mem_iff.mpr List.mem_cons_self)
  refine ⟨before, after, ?_, hsplit⟩
  have hsorted := pairwise_mergeSort_le (front ++ name :: back)
  rw [hsplit] at hperm hsorted
  have hrest : (before ++ after).Perm (front ++ back).mergeSort :=
    (List.perm_middle.symm.trans hperm).cons_inv
  have hbetween : (before ++ after).Pairwise (· ≤ ·) :=
    hsorted.sublist ((List.sublist_cons_self name after).append_left before)
  exact (hrest.eq_of_pairwise (fun _ _ _ _ hle hge => String.le_antisymm hle hge) hbetween
    (pairwise_mergeSort_le _)).symm

end TestScout
