import TestScout.Failure
import TestScout.Json.Token
import TestScout.Overlay.Basic
import TestScout.Text.Blank

/-!
# Overlays as JSON

Unsaved contents come as an object whose only member, `replace`, maps paths to contents. The object
may stand in brackets, and without the member it replaces nothing.
-/

namespace TestScout.Overlay

open Json (Token)

/-! ## 1. Maps of texts -/

/-- The members of an object behind its opening brace, and the tokens behind the object. A comma
    has to stand between two members and nowhere else. -/
def readMembers (first : Bool) : List Token → Option (List (String × String) × List Token)
  | .closeBrace :: rest => some ([], rest)
  | .comma :: .text name :: .colon :: .text value :: rest =>
    if first then none
    else (readMembers false rest).map fun read => ((name, value) :: read.1, read.2)
  | .text name :: .colon :: .text value :: rest =>
    if first then (readMembers false rest).map fun read => ((name, value) :: read.1, read.2)
    else none
  | _ => none

/-- Members with one more; a repeated name keeps its place and has the new value. -/
def putMember (members : List (String × String)) (member : String × String) :
    List (String × String) :=
  if members.any (·.1 = member.1) then
    members.map fun old => if old.1 = member.1 then member else old
  else members ++ [member]

/-! ## 2. Payloads -/

/-- The members that an object replaces, and the tokens behind the object. -/
def readObject : List Token → Option (List (String × String) × List Token)
  | .openBrace :: .closeBrace :: rest => some ([], rest)
  | .openBrace :: .text "replace" :: .colon :: .openBrace :: rest =>
    match readMembers true rest with
    | some (members, .closeBrace :: behind) => some (members, behind)
    | _ => none
  | _ => none

/-- The members that a map of texts alone holds, and the tokens behind it. -/
def readMap : List Token → Option (List (String × String) × List Token)
  | .openBrace :: rest => readMembers true rest
  | _ => none

/-- The members that a payload replaces. The brackets of a list hold the map itself. -/
def readPayload (tokens : List Token) : Option (List (String × String)) :=
  match tokens with
  | [.openBracket, .closeBracket] => some []
  | .openBracket :: rest =>
    match readMap rest with
    | some (members, [.closeBracket]) => some members
    | _ => none
  | _ =>
    match readObject tokens with
    | some (members, []) => some members
    | _ => none

/-- The overlay of members, none if there are no members. -/
def ofMembers (members : List (String × String)) : Option Overlay :=
  if members.isEmpty then none
  else some (ofList ((members.foldl putMember []).map fun member => (⟨member.1⟩, member.2)))

/-- The overlay that a text describes. -/
def ofJson (text : List Char) : Except Failure (Option Overlay) :=
  match (Json.tokens text).bind readPayload with
  | some members => .ok (ofMembers members)
  | none => .error .overlayForm

/-- The overlay that an argument asks for: the text of an object itself, or the path of a file that
    holds one. A blank argument asks for none. -/
def load (tree : FileTree) (argument : String) : Except Failure (Option Overlay) :=
  match trim argument.toList with
  | [] => .ok none
  | text@(c :: _) =>
    if c = '\x7b' then ofJson text
    else
      let path : Path := ⟨String.ofList text⟩
      match SourceText.readPlain tree path with
      | .error cause => .error (.overlayUnreadable path cause)
      | .ok found => ofJson found.toList

end TestScout.Overlay
