import CanonTree.Syntax.Tree
import CanonTree.Text.Slice

namespace CanonTree

/-- The piece of source the span covers, if it is a non-empty run of whole characters. -/
def Span.slice? (s : Span) (source : String) : Option String := do
  let (start, stop) ← s.range?
  let text ← Text.slice? source start stop
  if text.isEmpty then none else some text

namespace Syntax

structure Fragment where
  kind : Kind
  role : Role
  text : String
deriving DecidableEq

namespace Fragment

def joined (mark : String) (fs : List Fragment) : String := mark.intercalate (fs.map (·.text))

def inRole (r : Role) (fs : List Fragment) : List Fragment := fs.filter (·.role = r)

def leafText (kind : Kind) (token : String) : String :=
  match kind with
  | .wildcardType => "?"
  | .nullLiteral => if token.isEmpty then "null" else token
  | .thisExpression => if token.isEmpty then "this" else token
  | .dimension => if token.isEmpty then "[]" else token
  | _ => token

def typeArguments (fs : List Fragment) : String :=
  match inRole .typeArguments fs with
  | [] => ""
  | args => "<" ++ joined ", " args ++ ">"

def arguments (fs : List Fragment) : String := "(" ++ joined ", " (inRole .arguments fs) ++ ")"

def receiver (fs : List Fragment) : String :=
  match inRole .expression fs with
  | [] => ""
  | r :: _ => r.text ++ "."

def call (fs : List Fragment) : String :=
  typeArguments fs ++ ((inRole .name fs).head?.elim "" (·.text)) ++ arguments fs

def isCreatedType (f : Fragment) : Bool :=
  f.kind ≠ .anonymousClassDeclaration && f.role ≠ .expression && f.role ≠ .typeArguments &&
    f.role ≠ .arguments

def instanceCreation (fs : List Fragment) : String :=
  receiver fs ++ "new " ++ typeArguments fs ++ ((fs.find? isCreatedType).elim "" (·.text)) ++
    arguments fs ++
    ((fs.find? (·.kind = .anonymousClassDeclaration)).elim "" fun body => " " ++ body.text)

/-- Takes the pairs of brackets off the end of a text that is given back to front, and counts
them. -/
def stripBrackets : List Char → List Char × Nat
  | ']' :: '[' :: cs => ((stripBrackets cs).1, (stripBrackets cs).2 + 1)
  | cs => (cs, 0)

def brackets (n : Nat) : String := String.join (List.replicate n "[]")

/-- Dimensions with a size come from the children, the others are left over from the type. -/
def arrayCreation (type : Fragment) (fs : List Fragment) : String :=
  let (element, dimensions) := stripBrackets type.text.toList.reverse
  let sizes := fs.filter (·.kind ≠ .arrayInitializer)
  let initializers := fs.filter (·.kind = .arrayInitializer)
  "new " ++ String.ofList element.reverse ++
    String.join (sizes.map fun f => "[" ++ f.text ++ "]") ++
    brackets (dimensions - sizes.length) ++
    initializers.getLast?.elim "" fun f => " " ++ f.text

/-- A declarator with its dimensions, and the initializer that was met last. -/
def declarator : List Fragment → String → Option String → String × Option String
  | [], d, i => (d, i)
  | f :: fs, d, i =>
    if f.kind = .dimension || d.isEmpty then declarator fs (d ++ f.text) i
    else declarator fs d (some f.text)

def declaration (fs : List Fragment) : String :=
  match declarator fs "" none with
  | (d, some i) => d ++ " = " ++ i
  | (d, none) => d

def superField (fs : List Fragment) : String :=
  match fs.dropLast, fs.getLast? with
  | [], some name => "super." ++ name.text
  | qualifier, some name => joined "." qualifier ++ ".super." ++ name.text
  | _, none => "super"

def compound (kind : Kind) (token : String) (first : Fragment) (rest : List Fragment) : String :=
  let all := first :: rest
  match kind with
  | .qualifiedName | .qualifiedType | .fieldAccess => joined "." all
  | .infixExpression | .assignment => joined (" " ++ token ++ " ") all
  | .prefixExpression => token ++ joined "" all
  | .postfixExpression => joined "" all ++ token
  | .methodInvocation => receiver all ++ call all
  | .superMethodInvocation => "super." ++ call all
  | .classInstanceCreation => instanceCreation all
  | .arrayCreation => arrayCreation first rest
  | .parameterizedType => first.text ++ "<" ++ joined ", " rest ++ ">"
  | .arrayType => if rest.isEmpty then first.text ++ "[]" else joined "" all
  | .wildcardType =>
    "? " ++ (if token = "super" then "super" else "extends") ++ " " ++ joined " " all
  | .arrayAccess => first.text ++ "[" ++ joined "" rest ++ "]"
  | .castExpression => "(" ++ first.text ++ ") " ++ joined " " rest
  | .parenthesizedExpression => "(" ++ joined " " all ++ ")"
  | .conditionalExpression =>
    match rest with
    | [yes, no] => first.text ++ " ? " ++ yes.text ++ " : " ++ no.text
    | _ => joined " " all
  | .instanceofExpression => joined " instanceof " all
  | .typeLiteral => joined "" all ++ ".class"
  | .thisExpression => joined "" all ++ ".this"
  | .superFieldAccess => superField all
  | .arrayInitializer => "\x7b" ++ joined ", " all ++ "\x7d"
  | .memberValuePair => joined " = " all
  | .variableDeclarationFragment => declaration all
  | .markerAnnotationNode => "@" ++ first.text
  | .singleMemberAnnotationNode | .normalAnnotationNode =>
    "@" ++ first.text ++ "(" ++ joined ", " rest ++ ")"
  | _ => joined " " all

def render (kind : Kind) (token : Option String) : List Fragment → String
  | [] => leafText kind (token.getD "")
  | first :: rest => compound kind (token.getD "") first rest

end Fragment

mutual
/-- The source under the node's span, or its rendering if the span covers no text. -/
def text (source : String) : Branch → String
  | .node v cs =>
    match v.span.slice? source with
    | some s => s
    | none => Fragment.render v.kind v.attrs.token (fragments source cs)

def fragments (source : String) : List Branch → List Fragment
  | [] => []
  | c :: cs => ⟨c.value.kind, c.value.role, text source c⟩ :: fragments source cs
end

end Syntax
end CanonTree
