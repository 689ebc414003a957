import CanonTree.Syntax.Rendering
import CanonTree.Text.Blank

namespace CanonTree.Syntax

def label (source : String) (b : Branch) : String :=
  let token := b.value.attrs.token
  match b.value.kind with
  | .simpleName | .modifier | .stringLiteral | .numberLiteral | .characterLiteral
  | .booleanLiteral | .textElement => token.getD (text source b)
  | .qualifiedName => token.getD (Text.removeBlanks (text source b))
  | .arrayType | .parameterizedType | .primitiveType | .qualifiedType | .simpleType
  | .wildcardType => text source b
  | .infixExpression | .prefixExpression | .postfixExpression | .assignment | .tagElement =>
    token.getD ""
  | .typeDeclaration => if b.value.attrs.isInterface then "interface" else "class"
  | .importDeclaration => if b.value.attrs.isOnDemand then "on-demand" else "single-type"
  | .switchCase => if b.value.attrs.isDefault then "default" else ""
  | _ => ""

end CanonTree.Syntax
