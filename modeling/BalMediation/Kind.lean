import BalMediation.Text.Basic

/-!
# Kinds of nodes

What a node of a syntax tree stands for. Only the parts of a service source that mediation looks
at have kinds of their own; every other member of a module or a service is `other`.
-/

namespace BalMediation

/-- The kinds of nodes. -/
inductive Kind where
  | modulePart
  | importDeclaration
  | serviceDeclaration
  | resourceAccessorDefinition
  | objectMethodDefinition
  | functionDefinition
  | functionSignature
  | parameter
  | returnTypeDescriptor
  | typeDescriptor
  | functionBodyBlock
  | expressionFunctionBody
  | externalFunctionBody
  | annotationAttachment
  | identifier
  | resourcePath
  | absoluteResourcePath
  | expression
  | keyword
  | openParen
  | closeParen
  | openBrace
  | closeBrace
  | other
deriving DecidableEq, Repr

namespace Kind

/-- All kinds. -/
def all : List Kind := [
  modulePart, importDeclaration, serviceDeclaration, resourceAccessorDefinition,
  objectMethodDefinition, functionDefinition, functionSignature, parameter, returnTypeDescriptor,
  typeDescriptor, functionBodyBlock, expressionFunctionBody, externalFunctionBody,
  annotationAttachment, identifier, resourcePath, absoluteResourcePath, expression, keyword,
  openParen, closeParen, openBrace, closeBrace, other]

/-- The name of a kind as it is shown in a listing. -/
def name : Kind → Text
  | modulePart => "module_part".toList
  | importDeclaration => "import_declaration".toList
  | serviceDeclaration => "service_declaration".toList
  | resourceAccessorDefinition => "resource_accessor_definition".toList
  | objectMethodDefinition => "object_method_definition".toList
  | functionDefinition => "function_definition".toList
  | functionSignature => "function_signature".toList
  | parameter => "parameter".toList
  | returnTypeDescriptor => "return_type_descriptor".toList
  | typeDescriptor => "type_descriptor".toList
  | functionBodyBlock => "function_body_block".toList
  | expressionFunctionBody => "expression_function_body".toList
  | externalFunctionBody => "external_function_body".toList
  | annotationAttachment => "annotation".toList
  | identifier => "identifier".toList
  | resourcePath => "resource_path".toList
  | absoluteResourcePath => "absolute_resource_path".toList
  | expression => "expression".toList
  | keyword => "keyword".toList
  | openParen => "open_paren".toList
  | closeParen => "close_paren".toList
  | openBrace => "open_brace".toList
  | closeBrace => "close_brace".toList
  | other => "other".toList

/-- The kind with the given name. -/
def ofName? (name : Text) : Option Kind :=
  all.find? (·.name == name)

end Kind

end BalMediation
