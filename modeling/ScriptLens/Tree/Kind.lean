namespace ScriptLens

inductive NodeKind where
  | program
  | classDeclaration
  | classExpression
  | classBody
  | methodDefinition
  | methodSignature
  | functionDeclaration
  | functionExpression
  | arrowFunction
  | objectLiteral
  | pair
  | lexicalDeclaration
  | variableDeclarator
  | assignment
  | callExpression
  | arguments
  | memberAccess
  | subscriptAccess
  | parenthesizedExpression
  | typeAssertion
  | enumDeclaration
  | enumBody
  | enumAssignment
  | identifier
  | propertyIdentifier
  | stringLiteral
  | numberLiteral
  | comment
  | error
  | other
deriving DecidableEq

namespace NodeKind

def typeNames : List (String × NodeKind) :=
  [("program", program),
   ("class_declaration", classDeclaration),
   ("abstract_class_declaration", classDeclaration),
   ("class", classExpression),
   ("class_body", classBody),
   ("method_definition", methodDefinition),
   ("method_signature", methodSignature),
   ("abstract_method_signature", methodSignature),
   ("function_declaration", functionDeclaration),
   ("generator_function_declaration", functionDeclaration),
   ("function_signature", functionDeclaration),
   ("function_expression", functionExpression),
   ("generator_function", functionExpression),
   ("function", functionExpression),
   ("arrow_function", arrowFunction),
   ("object", objectLiteral),
   ("pair", pair),
   ("lexical_declaration", lexicalDeclaration),
   ("variable_declarator", variableDeclarator),
   ("assignment_expression", assignment),
   ("call_expression", callExpression),
   ("arguments", arguments),
   ("member_expression", memberAccess),
   ("subscript_expression", subscriptAccess),
   ("parenthesized_expression", parenthesizedExpression),
   ("as_expression", typeAssertion),
   ("satisfies_expression", typeAssertion),
   ("enum_declaration", enumDeclaration),
   ("enum_body", enumBody),
   ("enum_assignment", enumAssignment),
   ("identifier", identifier),
   ("property_identifier", propertyIdentifier),
   ("private_property_identifier", propertyIdentifier),
   ("type_identifier", propertyIdentifier),
   ("string", stringLiteral),
   ("number", numberLiteral),
   ("comment", comment),
   ("html_comment", comment),
   ("ERROR", error)]

def ofTypeName (name : String) : NodeKind :=
  (typeNames.lookup name).getD other

def label : NodeKind → String
  | program => "Program"
  | classDeclaration => "ClassDeclaration"
  | classExpression => "ClassExpression"
  | classBody => "ClassBody"
  | methodDefinition => "MethodDefinition"
  | methodSignature => "MethodSignature"
  | functionDeclaration => "FunctionDeclaration"
  | functionExpression => "FunctionExpression"
  | arrowFunction => "ArrowFunction"
  | objectLiteral => "ObjectLiteral"
  | pair => "Pair"
  | lexicalDeclaration => "LexicalDeclaration"
  | variableDeclarator => "VariableDeclarator"
  | assignment => "Assignment"
  | callExpression => "CallExpression"
  | arguments => "Arguments"
  | memberAccess => "MemberAccess"
  | subscriptAccess => "SubscriptAccess"
  | parenthesizedExpression => "ParenthesizedExpression"
  | typeAssertion => "TypeAssertion"
  | enumDeclaration => "EnumDeclaration"
  | enumBody => "EnumBody"
  | enumAssignment => "EnumAssignment"
  | identifier => "Identifier"
  | propertyIdentifier => "PropertyIdentifier"
  | stringLiteral => "StringLiteral"
  | numberLiteral => "NumberLiteral"
  | comment => "Comment"
  | error => "Error"
  | other => "Other"

end NodeKind

end ScriptLens
