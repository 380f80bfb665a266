/-
# The languages as grammars

Puts the rules together and says how readings are chosen: which phrases hold their parts more firmly
than which others, and which phrases make no nodes of their own.
-/

import SourceAtlas.Grammar.Rules.Declarations
import SourceAtlas.Grammar.Rules.Literals
import SourceAtlas.Grammar.Rules.Markup
import SourceAtlas.Grammar.Rules.Modules
import SourceAtlas.Grammar.Rules.Statements
import SourceAtlas.Grammar.Rules.Types

namespace SourceAtlas.Grammar

def Dialect.rules (d : Dialect) : List (String × Rule) :=
  moduleRules d ++ statementRules d ++ d.untyped usingRules ++ expressionRules d ++
    literalRules ++ patternRules ++ (if d.hasMarkup then markupRules d else []) ++
    functionRules d ++ classRules d ++ d.untyped fieldRules ++ d.typed typedImportRules ++
    d.typed typedMemberRules ++
    (if d.hasMarkup then d.typed (typedTagRules d) else typeAssertionRules) ++
    d.typed typedExpressionRules ++ d.typed typedDeclarationRules ++ d.typed typeRules ++
    d.typed typeQueryRules ++ d.typed objectTypeRules

/-- The phrases that are replaced by their rules. -/
def Dialect.inlined (d : Dialect) : List String :=
  ["_expressions", "_semicolon", "_identifier", "_reserved_identifier", "_jsx_attribute",
    "_jsx_element_name", "_jsx_child", "_jsx_element", "_jsx_attribute_name",
    "_jsx_attribute_value", "_jsx_identifier", "_lhs_expression"] ++
    d.untyped ["_call_signature", "_formal_parameter"] ++
    d.typed ["_type_identifier", "_jsx_tag_start"]

/-- The phrases that only gather others. -/
def Dialect.unseen (d : Dialect) : List String :=
  ["statement", "declaration", "expression", "primary_expression", "pattern"] ++
    d.typed ["type", "primary_type"]

/-- Which parts of expressions and statements are held more firmly than which others. -/
def plainOrders : List (List Rank) :=
  [[.level "member", .level "template_call", .level "call", .phrase "update_expression",
      .level "unary_void", .level "binary_exp", .level "binary_times", .level "binary_plus",
      .level "binary_shift", .level "binary_compare", .level "binary_relation",
      .level "binary_equality", .level "bitwise_and", .level "bitwise_xor", .level "bitwise_or",
      .level "logical_and", .level "logical_or", .level "ternary",
      .phrase "sequence_expression", .phrase "arrow_function"],
    [.level "assign", .phrase "primary_expression"],
    [.level "member", .level "template_call", .level "new", .level "call",
      .phrase "expression"],
    [.level "declare", .level "literal"],
    [.phrase "primary_expression", .phrase "statement_block", .level "object"],
    [.phrase "meta_property", .phrase "import"],
    [.phrase "import_statement", .phrase "import"],
    [.phrase "export_statement", .phrase "primary_expression"],
    [.phrase "lexical_declaration", .phrase "primary_expression"]]

/-- Which parts of types and typed phrases are held more firmly than which others. -/
def typedOrders : List (List Rank) :=
  [[.level "call", .level "instantiation", .level "unary", .level "binary",
      .phrase "await_expression", .phrase "arrow_function"],
    [.level "extends", .level "instantiation"],
    [.phrase "intersection_type", .phrase "union_type", .phrase "conditional_type",
      .phrase "function_type", .level "binary", .phrase "type_predicate",
      .phrase "readonly_type"],
    [.phrase "mapped_type_clause", .phrase "primary_expression"],
    [.phrase "accessibility_modifier", .phrase "primary_expression"],
    [.level "unary_void", .phrase "expression"],
    [.phrase "extends_clause", .phrase "primary_expression"],
    [.level "unary", .level "assign"],
    [.level "declare", .phrase "expression"],
    [.phrase "predefined_type", .phrase "unary_expression"],
    [.phrase "type", .phrase "flow_maybe_type"],
    [.phrase "tuple_type", .phrase "array_type", .phrase "pattern", .phrase "type"],
    [.phrase "readonly_type", .phrase "pattern"],
    [.phrase "readonly_type", .phrase "primary_expression"],
    [.phrase "type_query", .phrase "subscript_expression", .phrase "expression"],
    [.phrase "type_query", .phrase "_type_query_subscript_expression"],
    [.phrase "nested_type_identifier", .phrase "generic_type", .phrase "primary_type",
      .phrase "lookup_type", .phrase "index_type_query", .phrase "type"],
    [.phrase "as_expression", .phrase "satisfies_expression", .phrase "primary_type"],
    [.phrase "_type_query_member_expression", .phrase "member_expression"],
    [.phrase "member_expression", .phrase "_type_query_member_expression_in_type_annotation"],
    [.phrase "_type_query_member_expression", .phrase "primary_expression"],
    [.phrase "_type_query_subscript_expression", .phrase "subscript_expression"],
    [.phrase "_type_query_subscript_expression", .phrase "primary_expression"],
    [.phrase "_type_query_call_expression", .phrase "primary_expression"],
    [.phrase "_type_query_instantiation_expression", .phrase "primary_expression"],
    [.phrase "type_query", .phrase "primary_expression"],
    [.phrase "override_modifier", .phrase "primary_expression"],
    [.phrase "decorator_call_expression", .phrase "decorator"],
    [.phrase "literal_type", .phrase "pattern"],
    [.phrase "predefined_type", .phrase "pattern"],
    [.phrase "call_expression", .phrase "_type_query_call_expression"],
    [.phrase "call_expression", .phrase "_type_query_call_expression_in_type_annotation"],
    [.phrase "new_expression", .phrase "primary_expression"],
    [.phrase "meta_property", .phrase "primary_expression"],
    [.phrase "construct_signature", .phrase "_property_name"]]

def Dialect.language (d : Dialect) : Language :=
  { rules := d.rules
    inlined := d.inlined
    unseen := d.unseen
    orders := plainOrders ++ d.typed typedOrders
    extras := [.lexeme .comment, .lexeme .markupComment] }

end SourceAtlas.Grammar
