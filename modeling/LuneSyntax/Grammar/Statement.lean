import LuneSyntax.Grammar.Expression

/-!
# Statements

The only statement so far is the declaration of a variable with its type and initial value.
Reserved words without grammar are refused by the name of the feature that they announce.
-/

set_option autoImplicit false

namespace LuneSyntax.Grammar

/-- The features that are reserved by a word at the beginning of a statement. -/
def reservedFeature? : Token.Kind → Option String
  | .ifWord => some "'if' statements"
  | .elseWord => some "'else' clauses"
  | .forWord => some "'for' loops"
  | .whileWord => some "'while' loops"
  | .caseWord => some "'case' statements"
  | .procWord => some "procedure definitions"
  | .ptrWord => some "pointer types"
  | _ => none

def typeName : Reader PrimitiveType
  | [] => .error ⟨.invalidType, []⟩
  | token :: rest =>
    if token.kind = .ptrWord then .error ⟨.unimplemented "pointer types", token :: rest⟩
    else
      match PrimitiveType.ofKind? token.kind with
      | some type => .ok (.single type token rest)
      | none => .error ⟨.invalidType, token :: rest⟩

/-- What follows the word that begins a declaration: name, colon, type, equals sign, value. -/
def declaration : Reader Stmt := fun tokens => do
  let name ← expect .identifier "variable name" tokens
  let colon ← expect .colon "':' after variable name" name.rest
  let type ← typeName colon.rest
  let equal ← expect .equal "'=' and an initial value" type.rest
  let initializer ← expression equal.rest
  return ⟨.declaration name.value.content type.value initializer.value, initializer.rest,
    Nat.lt_trans initializer.shorter <| Nat.lt_trans equal.shorter <|
      Nat.lt_trans type.shorter <| Nat.lt_trans colon.shorter name.shorter⟩

def statement : Reader Stmt
  | [] => .error ⟨.invalidStatement, []⟩
  | token :: rest =>
    if token.kind = .varWord then
      match declaration rest with
      | .ok phrase => .ok (phrase.prepend token phrase.value)
      | .error fault => .error fault
    else
      match reservedFeature? token.kind with
      | some feature => .error ⟨.unimplemented feature, token :: rest⟩
      | none => .error ⟨.invalidStatement, token :: rest⟩

end LuneSyntax.Grammar
