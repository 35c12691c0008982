import ActorSurface.Token.Kind

/-!
The header of an actor declaration: the kinds of token between the `ACTOR` keyword and the brace or
semicolon that ends the header. Two questions are asked of it: does it return a future or void
(`returnsFutureOrVoid`), and under which name does it declare the actor (`name?`).
-/

namespace ActorSurface

namespace Actor

open Token (Kind)

/-- The kinds of token of a header, in order. -/
abbrev Header := List Kind

namespace Header

/-- What stands behind the angle bracket that closes a clause, where `depth` further brackets have been
    opened inside it. Nothing, if it is never closed. -/
def behindClause : Nat → Header → Header
  | _, [] => []
  | depth, .less :: header => behindClause (depth + 1) header
  | 0, .greater :: header => header
  | depth + 1, .greater :: header => behindClause depth header
  | depth, _ :: header => behindClause depth header

/-- The header without the template clause in front. -/
def withoutTemplate : Header → Header
  | .template :: .less :: header => behindClause 0 header
  | header => header

/-- What may stand before the return type. -/
def isModifier : Kind → Bool
  | .static => true
  | .uncancellable => true
  | .identifier name => name == "inline"
  | _ => false

/-- The first kind that is no modifier, behind the template clause: where the return type begins. -/
def returnType? (header : Header) : Option Kind :=
  header.withoutTemplate.find? fun kind => !isModifier kind

/-- Whether the return type begins with a future or is void. -/
def returnsFutureOrVoid (header : Header) : Bool :=
  match header.returnType? with
  | some .future => true
  | some .void => true
  | _ => false

/-- The identifier before the first parenthesis that opens outside angle brackets, where `angles` brackets
    are open and `previous` is the kind before the rest of the header. A closing bracket too many is
    passed over. -/
def nameBehind (angles : Nat) (previous : Option Kind) : Header → Option String
  | [] => none
  | kind :: header =>
    if kind = .openParen ∧ angles = 0 then
      match previous with
      | some (.identifier name) => some name
      | _ => none
    else
      let angles :=
        match kind with
        | .less => angles + 1
        | .greater => angles - 1
        | _ => angles
      nameBehind angles (some kind) header

/-- The name that a header declares: the identifier directly before the parameter list. -/
def name? (header : Header) : Option String :=
  nameBehind 0 none header

end Header

end Actor

end ActorSurface
