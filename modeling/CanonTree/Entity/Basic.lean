namespace CanonTree

inductive Entity where
  | annotationTypeDeclaration | annotationTypeMemberDeclaration | anonymousClassDeclaration
  | arguments | arrayAccess | arrayCreation | arrayDimension | arrayInitializer | arrayType
  | assertStatement | assignment | attributeNode | block | blockComment | body | bodyDeclarations
  | booleanLiteral | breakStatement | castExpression | catchClause | catchClauses
  | characterLiteral | classNode | classInstanceCreation | compilationUnit
  | conditionalForExpression | conditionalExpression | constructorInvocation | continueStatement
  | doStatement | elseStatement | emptyStatement | enhancedForStatement | enumConstantDeclaration
  | enumConstants | enumDeclaration | expressionStatement | extendedOperands | fieldAccess
  | fieldDeclaration | finallyNode | forStatement | fragments | ifStatement | importDeclaration
  | infixExpression | initializer | initializers | instanceofExpression | javadoc
  | labeledStatement | lineComment | markerAnnotationNode | memberRef | memberValuePair | method
  | methodDeclaration | methodInvocation | methodRef | methodRefParameter | modifier | modifiers
  | normalAnnotationNode | nullLiteral | numberLiteral | packageDeclaration | parameterizedType
  | parameters | parenthesizedExpression | postfixExpression | prefixExpression | primitiveType
  | qualifiedName | qualifiedType | returnStatement | rootNode | simpleName | simpleType
  | singleMemberAnnotationNode | singleVariableDeclaration | stringLiteral | superClassType
  | superConstructorInvocation | superFieldAccess | superInterfaceTypes | superMethodInvocation
  | switchCase | switchStatement | synchronizedStatement | tagElement | textElement
  | thenStatement | thisExpression | throwNode | throwStatement | tryStatement | typeArguments
  | typeDeclaration | typeDeclarationStatement | typeLiteral | typeParameter | updaters
  | variableDeclarationExpression | variableDeclarationFragment | variableDeclarationStatement
  | whileStatement | wildcardType
deriving DecidableEq, Inhabited

namespace Entity

def syntheticCode : Int := -1

/-- The number is that of the Java parser, one above those, or −1 for kinds that no parsed node
becomes; the flag tells a diff engine whether changes at such nodes are worth reporting. -/
structure Info where
  name : String
  code : Int
  isValidChange : Bool

def info : Entity → Info
  | .annotationTypeDeclaration => ⟨"ANNOTATION_TYPE_DECLARATION", 81, true⟩
  | .annotationTypeMemberDeclaration => ⟨"ANNOTATION_TYPE_MEMBER_DECLARATION", 82, true⟩
  | .anonymousClassDeclaration => ⟨"ANONYMOUS_CLASS_DECLARATION", 1, true⟩
  | .arguments => ⟨"ARGUMENTS", 100, false⟩
  | .arrayAccess => ⟨"ARRAY_ACCESS", 2, true⟩
  | .arrayCreation => ⟨"ARRAY_CREATION", 3, true⟩
  | .arrayDimension => ⟨"ARRAY_DIMENSION", 85, true⟩
  | .arrayInitializer => ⟨"ARRAY_INITIALIZER", 4, true⟩
  | .arrayType => ⟨"ARRAY_TYPE", 5, true⟩
  | .assertStatement => ⟨"ASSERT_STATEMENT", 6, true⟩
  | .assignment => ⟨"ASSIGNMENT", 7, true⟩
  | .attributeNode => ⟨"ATTRIBUTE", -1, false⟩
  | .block => ⟨"BLOCK", 8, false⟩
  | .blockComment => ⟨"BLOCK_COMMENT", 64, true⟩
  | .body => ⟨"BODY", -1, false⟩
  | .bodyDeclarations => ⟨"BODY_DECLARATIONS", -1, false⟩
  | .booleanLiteral => ⟨"BOOLEAN_LITERAL", 9, true⟩
  | .breakStatement => ⟨"BREAK_STATEMENT", 10, true⟩
  | .castExpression => ⟨"CAST_EXPRESSION", 11, true⟩
  | .catchClause => ⟨"CATCH_CLAUSE", 12, true⟩
  | .catchClauses => ⟨"CATCH_CLAUSES", -1, false⟩
  | .characterLiteral => ⟨"CHARACTER_LITERAL", 13, true⟩
  | .classNode => ⟨"CLASS", -1, false⟩
  | .classInstanceCreation => ⟨"CLASS_INSTANCE_CREATION", 14, true⟩
  | .compilationUnit => ⟨"COMPILATION_UNIT", 15, true⟩
  | .conditionalForExpression => ⟨"CONDITIONAL_FOR_EXPRESSION", 106, true⟩
  | .conditionalExpression => ⟨"CONDITIONAL_EXPRESSION", 16, true⟩
  | .constructorInvocation => ⟨"CONSTRUCTOR_INVOCATION", 17, true⟩
  | .continueStatement => ⟨"CONTINUE_STATEMENT", 18, true⟩
  | .doStatement => ⟨"DO_STATEMENT", 19, true⟩
  | .elseStatement => ⟨"ELSE_STATEMENT", 101, true⟩
  | .emptyStatement => ⟨"EMPTY_STATEMENT", 20, true⟩
  | .enhancedForStatement => ⟨"ENHANCED_FOR_STATEMENT", 70, true⟩
  | .enumConstantDeclaration => ⟨"ENUM_CONSTANT_DECLARATION", 72, true⟩
  | .enumConstants => ⟨"ENUM_CONSTANTS", -1, false⟩
  | .enumDeclaration => ⟨"ENUM_DECLARATION", 71, true⟩
  | .expressionStatement => ⟨"EXPRESSION_STATEMENT", 21, true⟩
  | .extendedOperands => ⟨"EXTENDED_OPERANDS", -1, false⟩
  | .fieldAccess => ⟨"FIELD_ACCESS", 22, true⟩
  | .fieldDeclaration => ⟨"FIELD_DECLARATION", 23, true⟩
  | .finallyNode => ⟨"FINALLY", -1, false⟩
  | .forStatement => ⟨"FOR_STATEMENT", 24, true⟩
  | .fragments => ⟨"FRAGMENTS", -1, false⟩
  | .ifStatement => ⟨"IF_STATEMENT", 25, true⟩
  | .importDeclaration => ⟨"IMPORT_DECLARATION", 26, true⟩
  | .infixExpression => ⟨"INFIX_EXPRESSION", 27, true⟩
  | .initializer => ⟨"INITIALIZER", 28, true⟩
  | .initializers => ⟨"INITIALIZERS", 103, false⟩
  | .instanceofExpression => ⟨"INSTANCEOF_EXPRESSION", 62, true⟩
  | .javadoc => ⟨"JAVADOC", 29, true⟩
  | .labeledStatement => ⟨"LABELED_STATEMENT", 30, true⟩
  | .lineComment => ⟨"LINE_COMMENT", 63, true⟩
  | .markerAnnotationNode => ⟨"MARKER_ANNOTATION", 78, true⟩
  | .memberRef => ⟨"MEMBER_REF", 67, true⟩
  | .memberValuePair => ⟨"MEMBER_VALUE_PAIR", 80, true⟩
  | .method => ⟨"METHOD", -1, false⟩
  | .methodDeclaration => ⟨"METHOD_DECLARATION", 31, true⟩
  | .methodInvocation => ⟨"METHOD_INVOCATION", 32, true⟩
  | .methodRef => ⟨"METHOD_REF", 68, true⟩
  | .methodRefParameter => ⟨"METHOD_REF_PARAMETER", 69, true⟩
  | .modifier => ⟨"MODIFIER", 83, true⟩
  | .modifiers => ⟨"MODIFIERS", -1, false⟩
  | .normalAnnotationNode => ⟨"NORMAL_ANNOTATION", 77, true⟩
  | .nullLiteral => ⟨"NULL_LITERAL", 33, true⟩
  | .numberLiteral => ⟨"NUMBER_LITERAL", 34, true⟩
  | .packageDeclaration => ⟨"PACKAGE_DECLARATION", 35, true⟩
  | .parameterizedType => ⟨"PARAMETERIZED_TYPE", 74, true⟩
  | .parameters => ⟨"PARAMETERS", -1, false⟩
  | .parenthesizedExpression => ⟨"PARENTHESIZED_EXPRESSION", 36, true⟩
  | .postfixExpression => ⟨"POSTFIX_EXPRESSION", 37, true⟩
  | .prefixExpression => ⟨"PREFIX_EXPRESSION", 38, true⟩
  | .primitiveType => ⟨"PRIMITIVE_TYPE", 39, true⟩
  | .qualifiedName => ⟨"QUALIFIED_NAME", 40, true⟩
  | .qualifiedType => ⟨"QUALIFIED_TYPE", 75, true⟩
  | .returnStatement => ⟨"RETURN_STATEMENT", 41, true⟩
  | .rootNode => ⟨"ROOT_NODE", -1, true⟩
  | .simpleName => ⟨"SIMPLE_NAME", 42, true⟩
  | .simpleType => ⟨"SIMPLE_TYPE", 43, true⟩
  | .singleMemberAnnotationNode => ⟨"SINGLE_MEMBER_ANNOTATION", 79, true⟩
  | .singleVariableDeclaration => ⟨"SINGLE_VARIABLE_DECLARATION", 44, true⟩
  | .stringLiteral => ⟨"STRING_LITERAL", 45, true⟩
  | .superClassType => ⟨"SUPER_CLASS_TYPE", 105, true⟩
  | .superConstructorInvocation => ⟨"SUPER_CONSTRUCTOR_INVOCATION", 46, true⟩
  | .superFieldAccess => ⟨"SUPER_FIELD_ACCESS", 47, true⟩
  | .superInterfaceTypes => ⟨"SUPER_INTERFACE_TYPES", 104, false⟩
  | .superMethodInvocation => ⟨"SUPER_METHOD_INVOCATION", 48, true⟩
  | .switchCase => ⟨"SWITCH_CASE", 49, true⟩
  | .switchStatement => ⟨"SWITCH_STATEMENT", 50, true⟩
  | .synchronizedStatement => ⟨"SYNCHRONIZED_STATEMENT", 51, true⟩
  | .tagElement => ⟨"TAG_ELEMENT", 65, true⟩
  | .textElement => ⟨"TEXT_ELEMENT", 66, true⟩
  | .thenStatement => ⟨"THEN_STATEMENT", -1, true⟩
  | .thisExpression => ⟨"THIS_EXPRESSION", 52, true⟩
  | .throwNode => ⟨"THROW", -1, false⟩
  | .throwStatement => ⟨"THROW_STATEMENT", 53, true⟩
  | .tryStatement => ⟨"TRY_STATEMENT", 54, true⟩
  | .typeArguments => ⟨"TYPE_ARGUMENTS", 107, false⟩
  | .typeDeclaration => ⟨"TYPE_DECLARATION", 55, true⟩
  | .typeDeclarationStatement => ⟨"TYPE_DECLARATION_STATEMENT", 56, true⟩
  | .typeLiteral => ⟨"TYPE_LITERAL", 57, true⟩
  | .typeParameter => ⟨"TYPE_PARAMETER", 73, true⟩
  | .updaters => ⟨"UPDATERS", 102, false⟩
  | .variableDeclarationExpression => ⟨"VARIABLE_DECLARATION_EXPRESSION", 58, true⟩
  | .variableDeclarationFragment => ⟨"VARIABLE_DECLARATION_FRAGMENT", 59, true⟩
  | .variableDeclarationStatement => ⟨"VARIABLE_DECLARATION_STATEMENT", 60, true⟩
  | .whileStatement => ⟨"WHILE_STATEMENT", 61, true⟩
  | .wildcardType => ⟨"WILDCARD_TYPE", 76, true⟩

def all : List Entity := [
  .annotationTypeDeclaration, .annotationTypeMemberDeclaration, .anonymousClassDeclaration,
  .arguments, .arrayAccess, .arrayCreation, .arrayDimension, .arrayInitializer, .arrayType,
  .assertStatement, .assignment, .attributeNode, .block, .blockComment, .body, .bodyDeclarations,
  .booleanLiteral, .breakStatement, .castExpression, .catchClause, .catchClauses,
  .characterLiteral, .classNode, .classInstanceCreation, .compilationUnit,
  .conditionalForExpression, .conditionalExpression, .constructorInvocation, .continueStatement,
  .doStatement, .elseStatement, .emptyStatement, .enhancedForStatement, .enumConstantDeclaration,
  .enumConstants, .enumDeclaration, .expressionStatement, .extendedOperands, .fieldAccess,
  .fieldDeclaration, .finallyNode, .forStatement, .fragments, .ifStatement, .importDeclaration,
  .infixExpression, .initializer, .initializers, .instanceofExpression, .javadoc,
  .labeledStatement, .lineComment, .markerAnnotationNode, .memberRef, .memberValuePair, .method,
  .methodDeclaration, .methodInvocation, .methodRef, .methodRefParameter, .modifier, .modifiers,
  .normalAnnotationNode, .nullLiteral, .numberLiteral, .packageDeclaration, .parameterizedType,
  .parameters, .parenthesizedExpression, .postfixExpression, .prefixExpression, .primitiveType,
  .qualifiedName, .qualifiedType, .returnStatement, .rootNode, .simpleName, .simpleType,
  .singleMemberAnnotationNode, .singleVariableDeclaration, .stringLiteral, .superClassType,
  .superConstructorInvocation, .superFieldAccess, .superInterfaceTypes, .superMethodInvocation,
  .switchCase, .switchStatement, .synchronizedStatement, .tagElement, .textElement,
  .thenStatement, .thisExpression, .throwNode, .throwStatement, .tryStatement, .typeArguments,
  .typeDeclaration, .typeDeclarationStatement, .typeLiteral, .typeParameter, .updaters,
  .variableDeclarationExpression, .variableDeclarationFragment, .variableDeclarationStatement,
  .whileStatement, .wildcardType]

def name (e : Entity) : String := e.info.name
def code (e : Entity) : Int := e.info.code
def isValidChange (e : Entity) : Bool := e.info.isValidChange
def isSynthetic (e : Entity) : Bool := e.code == syntheticCode

def isType : Entity → Bool
  | .arrayType | .parameterizedType | .primitiveType | .qualifiedType | .simpleType
  | .wildcardType => true
  | _ => false

def isStatement : Entity → Bool
  | .assertStatement | .assignment | .breakStatement | .catchClause | .classInstanceCreation
  | .constructorInvocation | .continueStatement | .doStatement | .finallyNode | .forStatement
  | .ifStatement | .labeledStatement | .methodInvocation | .returnStatement
  | .superConstructorInvocation | .superMethodInvocation | .switchCase | .switchStatement
  | .synchronizedStatement | .throwStatement | .tryStatement | .variableDeclarationStatement
  | .whileStatement | .enhancedForStatement => true
  | _ => false

end Entity
end CanonTree
