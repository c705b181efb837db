import TestScout.Overlay.Payload
import TestScout.Proofs.Json.Spelling

/-!
# The texts that describe overlays

A payload is an object whose only member maps paths to contents, or a list that holds the map alone;
the object and the list may be empty. The reader accepts these texts and no others. Main statements:

* `IsPayload`, `Describes`: the payloads with given members, as tokens and as texts;
* `readMembers_eq_some_iff`, `readPayload_eq_some_iff`: what the reader takes;
* `ofJson_eq_ok_iff`: a text is read as an overlay exactly if it describes its members;
* `ofJson_of_describes`: members with different names are inserted in their order.
-/

namespace TestScout.Overlay

open Json (Token Holds)

/-! ## 1. Payloads -/

/-- A name and its text. -/
def memberTokens (member : String × String) : List Token :=
  [.text member.1, .colon, .text member.2]

/-- Members with a comma before each, but not before the first one of all. -/
def membersTokens (first : Bool) : List (String × String) → List Token
  | [] => []
  | member :: rest =>
    (if first then [] else [.comma]) ++ (memberTokens member ++ membersTokens false rest)

/-- An object of members. -/
def mapTokens (members : List (String × String)) : List Token :=
  .openBrace :: (membersTokens true members ++ [.closeBrace])

/-- The payloads with given members. -/
inductive IsPayload : List (String × String) → List Token → Prop where
  | emptyObject : IsPayload [] [.openBrace, .closeBrace]
  | object (members : List (String × String)) :
      IsPayload members
        ([.openBrace, .text "replace", .colon] ++ (mapTokens members ++ [.closeBrace]))
  | emptyList : IsPayload [] [.openBracket, .closeBracket]
  | list (members : List (String × String)) :
      IsPayload members ([.openBracket] ++ (mapTokens members ++ [.closeBracket]))

/-- The text is a payload with the members. -/
def Describes (text : List Char) (members : List (String × String)) : Prop :=
  ∃ tokens, Holds tokens text ∧ IsPayload members tokens

/-! ## 2. Reading payloads -/

section Reading

variable {tokens rest : List Token} {members : List (String × String)}

theorem readMembers_membersTokens (first : Bool) (members : List (String × String))
    (rest : List Token) :
    readMembers first (membersTokens first members ++ .closeBrace :: rest) =
      some (members, rest) := by
  induction members generalizing first with
  | nil => rfl
  | cons member behind ih => cases first <;> simp [membersTokens, memberTokens, readMembers, ih]

/-- **Members are read exactly up to the brace that closes them.** -/
theorem readMembers_eq_some_iff {first : Bool} :
    readMembers first tokens = some (members, rest) ↔
      tokens = membersTokens first members ++ .closeBrace :: rest := by
  constructor
  · intro h
    fun_induction readMembers first tokens generalizing members with
    | case1 first behind =>
      cases h
      rfl
    | case3 first name value behind hfirst ih =>
      obtain ⟨⟨others, left⟩, hread, heq⟩ := Option.map_eq_some_iff.mp h
      cases heq
      simp [membersTokens, memberTokens, hfirst, ih hread]
    | case4 name value behind ih =>
      obtain ⟨⟨others, left⟩, hread, heq⟩ := Option.map_eq_some_iff.mp h
      cases heq
      simp [membersTokens, memberTokens, ih hread]
    | case2 | case5 | case6 => cases h
  · intro h
    rw [h, readMembers_membersTokens]

theorem readMap_eq_some_iff :
    readMap tokens = some (members, rest) ↔ tokens = mapTokens members ++ rest := by
  unfold readMap
  split
  · simp [mapTokens, readMembers_eq_some_iff]
  · rename_i hbrace
    refine iff_of_false (by simp) fun h => ?_
    exact hbrace _ h

theorem readObject_eq_some_iff :
    readObject tokens = some (members, rest) ↔
      members = [] ∧ tokens = .openBrace :: .closeBrace :: rest ∨
        tokens = [.openBrace, .text "replace", .colon] ++
          (mapTokens members ++ .closeBrace :: rest) := by
  constructor
  · intro h
    unfold readObject at h
    split at h
    · cases h
      exact Or.inl ⟨rfl, rfl⟩
    · split at h
      · rename_i hread
        cases h
        rw [readMembers_eq_some_iff] at hread
        exact Or.inr (by simp [mapTokens, hread])
      · cases h
    · cases h
  · intro h
    rcases h with ⟨rfl, rfl⟩ | rfl
    · rfl
    · simp [readObject, mapTokens, readMembers_membersTokens]

/-- **The reader takes payloads and nothing else.** -/
theorem readPayload_eq_some_iff : readPayload tokens = some members ↔ IsPayload members tokens := by
  constructor
  · intro h
    unfold readPayload at h
    split at h
    · cases h
      exact .emptyList
    · split at h
      · rename_i hread
        cases h
        rw [readMap_eq_some_iff] at hread
        rw [hread]
        exact .list members
      · cases h
    · split at h
      · rename_i hread
        cases h
        rcases readObject_eq_some_iff.mp hread with ⟨rfl, rfl⟩ | rfl
        · exact .emptyObject
        · exact .object members
      · cases h
  · intro h
    cases h with
    | emptyObject => rfl
    | object members =>
      have hread : readObject ([.openBrace, .text "replace", .colon] ++
          (mapTokens members ++ [.closeBrace])) = some (members, []) :=
        readObject_eq_some_iff.mpr (Or.inr rfl)
      simp only [List.cons_append, List.nil_append] at hread ⊢
      simp only [readPayload, hread]
    | emptyList => rfl
    | list members =>
      have hread : readMap (mapTokens members ++ [.closeBracket]) =
          some (members, [.closeBracket]) :=
        readMap_eq_some_iff.mpr rfl
      simp only [mapTokens, List.cons_append, List.nil_append, List.append_assoc] at hread ⊢
      simp only [readPayload, hread]

end Reading

/-! ## 3. Reading overlays -/

section Members

variable {text : List Char} {members : List (String × String)}

theorem describes_iff :
    Describes text members ↔ (Json.tokens text).bind readPayload = some members := by
  simp only [Describes, Option.bind_eq_some_iff, Json.tokens_eq_some_iff, readPayload_eq_some_iff]

/-- **A text is read as an overlay exactly if it describes its members.** -/
theorem ofJson_eq_ok_iff {overlay? : Option Overlay} :
    ofJson text = .ok overlay? ↔
      ∃ members, Describes text members ∧ ofMembers members = overlay? := by
  unfold ofJson
  simp only [describes_iff]
  cases (Json.tokens text).bind readPayload with
  | none => simp
  | some members => simp

/-- Members with names that are not there yet come behind those that are. -/
theorem foldl_putMember {more : List (String × String)}
    (h : ((members ++ more).map (·.1)).Nodup) : more.foldl putMember members = members ++ more := by
  induction more generalizing members with
  | nil => simp
  | cons member rest ih =>
    have hnew : members.any (·.1 = member.1) = false := by
      rw [List.map_append, List.nodup_append] at h
      rw [List.any_eq_false]
      intro old hold heq
      exact h.2.2 old.1 (List.mem_map_of_mem hold) member.1 (by simp) (by simpa using heq)
    have hput : putMember members member = members ++ [member] := by
      unfold putMember
      rw [hnew]
      rfl
    rw [List.foldl_cons, hput, ih (by simpa using h)]
    simp

/-- **Members with different names are inserted in their order.** -/
theorem ofJson_of_describes (h : Describes text members) (hnames : (members.map (·.1)).Nodup) :
    ofJson text = .ok (if members = [] then none
      else some (ofList (members.map fun member => (⟨member.1⟩, member.2)))) := by
  have hput : members.foldl putMember [] = members := foldl_putMember hnames
  rw [ofJson_eq_ok_iff.mpr ⟨members, h, rfl⟩, ofMembers, hput]
  simp

end Members

end TestScout.Overlay
