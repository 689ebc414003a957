import CanonTree.Entity.Basic

namespace CanonTree.Syntax

inductive Kind where
  | anonymousClassDeclaration | arrayAccess | arrayCreation | arrayInitializer | arrayType
  | assertStatement | assignment | block | booleanLiteral | breakStatement | castExpression
  | catchClause | characterLiteral | classInstanceCreation | compilationUnit
  | conditionalExpression | constructorInvocation | continueStatement | doStatement
  | emptyStatement | expressionStatement | fieldAccess | fieldDeclaration | forStatement
  | ifStatement | importDeclaration | infixExpression | initializer | javadoc | labeledStatement
  | methodDeclaration | methodInvocation | nullLiteral | numberLiteral | packageDeclaration
  | parenthesizedExpression | postfixExpression | prefixExpression | primitiveType
  | qualifiedName | returnStatement | simpleName | simpleType | singleVariableDeclaration
  | stringLiteral | superConstructorInvocation | superFieldAccess | superMethodInvocation
  | switchCase | switchStatement | synchronizedStatement | thisExpression | throwStatement
  | tryStatement | typeDeclaration | typeDeclarationStatement | typeLiteral
  | variableDeclarationExpression | variableDeclarationFragment | variableDeclarationStatement
  | whileStatement | instanceofExpression | lineComment | blockComment | tagElement | textElement
  | memberRef | methodRef | methodRefParameter | enhancedForStatement | enumDeclaration
  | enumConstantDeclaration | typeParameter | parameterizedType | qualifiedType | wildcardType
  | normalAnnotationNode | markerAnnotationNode | singleMemberAnnotationNode | memberValuePair
  | annotationTypeDeclaration | annotationTypeMemberDeclaration | modifier | dimension
deriving DecidableEq, Inhabited

namespace Kind

structure Info where
  name : String
  code : Nat
  entity : Entity

def info : Kind → Info
  | .anonymousClassDeclaration => ⟨"AnonymousClassDeclaration", 1, .anonymousClassDeclaration⟩
  | .arrayAccess => ⟨"ArrayAccess", 2, .arrayAccess⟩
  | .arrayCreation => ⟨"ArrayCreation", 3, .arrayCreation⟩
  | .arrayInitializer => ⟨"ArrayInitializer", 4, .arrayInitializer⟩
  | .arrayType => ⟨"ArrayType", 5, .arrayType⟩
  | .assertStatement => ⟨"AssertStatement", 6, .assertStatement⟩
  | .assignment => ⟨"Assignment", 7, .assignment⟩
  | .block => ⟨"Block", 8, .block⟩
  | .booleanLiteral => ⟨"BooleanLiteral", 9, .booleanLiteral⟩
  | .breakStatement => ⟨"BreakStatement", 10, .breakStatement⟩
  | .castExpression => ⟨"CastExpression", 11, .castExpression⟩
  | .catchClause => ⟨"CatchClause", 12, .catchClause⟩
  | .characterLiteral => ⟨"CharacterLiteral", 13, .characterLiteral⟩
  | .classInstanceCreation => ⟨"ClassInstanceCreation", 14, .classInstanceCreation⟩
  | .compilationUnit => ⟨"CompilationUnit", 15, .compilationUnit⟩
  | .conditionalExpression => ⟨"ConditionalExpression", 16, .conditionalExpression⟩
  | .constructorInvocation => ⟨"ConstructorInvocation", 17, .constructorInvocation⟩
  | .continueStatement => ⟨"ContinueStatement", 18, .continueStatement⟩
  | .doStatement => ⟨"DoStatement", 19, .doStatement⟩
  | .emptyStatement => ⟨"EmptyStatement", 20, .emptyStatement⟩
  | .expressionStatement => ⟨"ExpressionStatement", 21, .expressionStatement⟩
  | .fieldAccess => ⟨"FieldAccess", 22, .fieldAccess⟩
  | .fieldDeclaration => ⟨"FieldDeclaration", 23, .fieldDeclaration⟩
  | .forStatement => ⟨"ForStatement", 24, .forStatement⟩
  | .ifStatement => ⟨"IfStatement", 25, .ifStatement⟩
  | .importDeclaration => ⟨"ImportDeclaration", 26, .importDeclaration⟩
  | .infixExpression => ⟨"InfixExpression", 27, .infixExpression⟩
  | .initializer => ⟨"Initializer", 28, .initializer⟩
  | .javadoc => ⟨"Javadoc", 29, .javadoc⟩
  | .labeledStatement => ⟨"LabeledStatement", 30, .labeledStatement⟩
  | .methodDeclaration => ⟨"MethodDeclaration", 31, .methodDeclaration⟩
  | .methodInvocation => ⟨"MethodInvocation", 32, .methodInvocation⟩
  | .nullLiteral => ⟨"NullLiteral", 33, .nullLiteral⟩
  | .numberLiteral => ⟨"NumberLiteral", 34, .numberLiteral⟩
  | .packageDeclaration => ⟨"PackageDeclaration", 35, .packageDeclaration⟩
  | .parenthesizedExpression => ⟨"ParenthesizedExpression", 36, .parenthesizedExpression⟩
  | .postfixExpression => ⟨"PostfixExpression", 37, .postfixExpression⟩
  | .prefixExpression => ⟨"PrefixExpression", 38, .prefixExpression⟩
  | .primitiveType => ⟨"PrimitiveType", 39, .primitiveType⟩
  | .qualifiedName => ⟨"QualifiedName", 40, .qualifiedName⟩
  | .returnStatement => ⟨"ReturnStatement", 41, .returnStatement⟩
  | .simpleName => ⟨"SimpleName", 42, .simpleName⟩
  | .simpleType => ⟨"SimpleType", 43, .simpleType⟩
  | .singleVariableDeclaration => ⟨"SingleVariableDeclaration", 44, .singleVariableDeclaration⟩
  | .stringLiteral => ⟨"StringLiteral", 45, .stringLiteral⟩
  | .superConstructorInvocation => ⟨"SuperConstructorInvocation", 46, .superConstructorInvocation⟩
  | .superFieldAccess => ⟨"SuperFieldAccess", 47, .superFieldAccess⟩
  | .superMethodInvocation => ⟨"SuperMethodInvocation", 48, .superMethodInvocation⟩
  | .switchCase => ⟨"SwitchCase", 49, .switchCase⟩
  | .switchStatement => ⟨"SwitchStatement", 50, .switchStatement⟩
  | .synchronizedStatement => ⟨"SynchronizedStatement", 51, .synchronizedStatement⟩
  | .thisExpression => ⟨"ThisExpression", 52, .thisExpression⟩
  | .throwStatement => ⟨"ThrowStatement", 53, .throwStatement⟩
  | .tryStatement => ⟨"TryStatement", 54, .tryStatement⟩
  | .typeDeclaration => ⟨"TypeDeclaration", 55, .typeDeclaration⟩
  | .typeDeclarationStatement => ⟨"TypeDeclarationStatement", 56, .typeDeclarationStatement⟩
  | .typeLiteral => ⟨"TypeLiteral", 57, .typeLiteral⟩
  | .variableDeclarationExpression =>
    ⟨"VariableDeclarationExpression", 58, .variableDeclarationExpression⟩
  | .variableDeclarationFragment =>
    ⟨"VariableDeclarationFragment", 59, .variableDeclarationFragment⟩
  | .variableDeclarationStatement =>
    ⟨"VariableDeclarationStatement", 60, .variableDeclarationStatement⟩
  | .whileStatement => ⟨"WhileStatement", 61, .whileStatement⟩
  | .instanceofExpression => ⟨"InstanceofExpression", 62, .instanceofExpression⟩
  | .lineComment => ⟨"LineComment", 63, .lineComment⟩
  | .blockComment => ⟨"BlockComment", 64, .blockComment⟩
  | .tagElement => ⟨"TagElement", 65, .tagElement⟩
  | .textElement => ⟨"TextElement", 66, .textElement⟩
  | .memberRef => ⟨"MemberRef", 67, .memberRef⟩
  | .methodRef => ⟨"MethodRef", 68, .methodRef⟩
  | .methodRefParameter => ⟨"MethodRefParameter", 69, .methodRefParameter⟩
  | .enhancedForStatement => ⟨"EnhancedForStatement", 70, .enhancedForStatement⟩
  | .enumDeclaration => ⟨"EnumDeclaration", 71, .enumDeclaration⟩
  | .enumConstantDeclaration => ⟨"EnumConstantDeclaration", 72, .enumConstantDeclaration⟩
  | .typeParameter => ⟨"TypeParameter", 73, .typeParameter⟩
  | .parameterizedType => ⟨"ParameterizedType", 74, .parameterizedType⟩
  | .qualifiedType => ⟨"QualifiedType", 75, .qualifiedType⟩
  | .wildcardType => ⟨"WildcardType", 76, .wildcardType⟩
  | .normalAnnotationNode => ⟨"NormalAnnotation", 77, .normalAnnotationNode⟩
  | .markerAnnotationNode => ⟨"MarkerAnnotation", 78, .markerAnnotationNode⟩
  | .singleMemberAnnotationNode => ⟨"SingleMemberAnnotation", 79, .singleMemberAnnotationNode⟩
  | .memberValuePair => ⟨"MemberValuePair", 80, .memberValuePair⟩
  | .annotationTypeDeclaration => ⟨"AnnotationTypeDeclaration", 81, .annotationTypeDeclaration⟩
  | .annotationTypeMemberDeclaration =>
    ⟨"AnnotationTypeMemberDeclaration", 82, .annotationTypeMemberDeclaration⟩
  | .modifier => ⟨"Modifier", 83, .modifier⟩
  | .dimension => ⟨"Dimension", 85, .arrayDimension⟩

def all : List Kind := [
  .anonymousClassDeclaration, .arrayAccess, .arrayCreation, .arrayInitializer, .arrayType,
  .assertStatement, .assignment, .block, .booleanLiteral, .breakStatement, .castExpression,
  .catchClause, .characterLiteral, .classInstanceCreation, .compilationUnit,
  .conditionalExpression, .constructorInvocation, .continueStatement, .doStatement,
  .emptyStatement, .expressionStatement, .fieldAccess, .fieldDeclaration, .forStatement,
  .ifStatement, .importDeclaration, .infixExpression, .initializer, .javadoc, .labeledStatement,
  .methodDeclaration, .methodInvocation, .nullLiteral, .numberLiteral, .packageDeclaration,
  .parenthesizedExpression, .postfixExpression, .prefixExpression, .primitiveType,
  .qualifiedName, .returnStatement, .simpleName, .simpleType, .singleVariableDeclaration,
  .stringLiteral, .superConstructorInvocation, .superFieldAccess, .superMethodInvocation,
  .switchCase, .switchStatement, .synchronizedStatement, .thisExpression, .throwStatement,
  .tryStatement, .typeDeclaration, .typeDeclarationStatement, .typeLiteral,
  .variableDeclarationExpression, .variableDeclarationFragment, .variableDeclarationStatement,
  .whileStatement, .instanceofExpression, .lineComment, .blockComment, .tagElement, .textElement,
  .memberRef, .methodRef, .methodRefParameter, .enhancedForStatement, .enumDeclaration,
  .enumConstantDeclaration, .typeParameter, .parameterizedType, .qualifiedType, .wildcardType,
  .normalAnnotationNode, .markerAnnotationNode, .singleMemberAnnotationNode, .memberValuePair,
  .annotationTypeDeclaration, .annotationTypeMemberDeclaration, .modifier, .dimension]

def name (k : Kind) : String := k.info.name
def code (k : Kind) : Nat := k.info.code

def entity (k : Kind) : Entity := k.info.entity

def ofName? (name : String) : Option Kind := all.find? (·.name == name)

def isAnnotating : Kind → Bool
  | .normalAnnotationNode | .markerAnnotationNode | .singleMemberAnnotationNode => true
  | _ => false

end Kind
end CanonTree.Syntax
