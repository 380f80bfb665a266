/-
# Rules of types

The type language: names with arguments, literals, object and tuple types, function and constructor
types, unions, intersections, conditions, predicates, operators and the types of values.
-/

import SourceAtlas.Grammar.Rules.Functions

namespace SourceAtlas.Grammar

open Rule

def typeRules : List (String × Rule) :=
  [("type_annotation", seq [":", ref "type"]),
    ("omitting_type_annotation", seq ["-?:", ref "type"]),
    ("adding_type_annotation", seq ["+?:", ref "type"]),
    ("opting_type_annotation", seq ["?:", ref "type"]),
    ("type",
      oneOf
        [ref "primary_type", ref "function_type", ref "readonly_type", ref "constructor_type",
         ref "infer_type",
         held (.number (-1)) none
           (refAs "_type_query_member_expression_in_type_annotation" "member_expression"),
         held (.number (-1)) none
           (refAs "_type_query_call_expression_in_type_annotation" "call_expression"),
         held (.number (-1)) none
           (refAs "_import_type_with_arguments" "instantiation_expression")]),
    ("primary_type",
      oneOf
        [ref "parenthesized_type", ref "predefined_type", ref "_type_identifier",
         ref "nested_type_identifier", ref "generic_type", ref "object_type", ref "array_type",
         ref "tuple_type", ref "flow_maybe_type", ref "type_query", ref "index_type_query",
         nodeAs "this_type" (word "this"), ref "existential_type", ref "literal_type",
         ref "lookup_type", ref "conditional_type", ref "template_literal_type",
         ref "intersection_type", ref "union_type", "const"]),
    ("predefined_type",
      oneOf
        ["any", "number", "boolean", "string", "symbol",
         tokenAs "unique symbol" (seq ["unique", "symbol"]), "void", "unknown", "string", "never",
         "object"]),
    ("literal_type",
      oneOf
        [refAs "_number" "unary_expression", lexeme .number, ref "string", word "true",
         word "false", word "null", word "undefined"]),
    ("_number",
      held (.number (1)) (some .left)
        (seq [role "operator" (oneOf ["-", "+"]), role "argument" (lexeme .number)])),
    ("parenthesized_type", seq ["(", ref "type", ")"]),
    ("array_type", seq [ref "primary_type", "[", "]"]),
    ("lookup_type", seq [ref "primary_type", "[", ref "type", "]"]),
    ("tuple_type", seq ["[", commas (ref "_tuple_type_member"), maybe ",", "]"]),
    ("_tuple_type_member",
      oneOf
        [refAs "tuple_parameter" "required_parameter",
         refAs "optional_tuple_parameter" "optional_parameter", ref "optional_type",
         ref "rest_type", ref "type"]),
    ("tuple_parameter",
      seq [role "name" (oneOf [name, ref "rest_pattern"]), role "type" (ref "type_annotation")]),
    ("optional_tuple_parameter", seq [role "name" name, "?", role "type" (ref "type_annotation")]),
    ("optional_type", seq [ref "type", "?"]),
    ("rest_type", seq ["...", ref "type"]),
    ("union_type", leanLeft (seq [maybe (ref "type"), "|", ref "type"])),
    ("intersection_type", leanLeft (seq [maybe (ref "type"), "&", ref "type"])),
    ("conditional_type",
      leanRight
        (seq
          [role "left" (ref "type"), "extends", role "right" (ref "type"), "?",
           role "consequence" (ref "type"), ":", role "alternative" (ref "type")])),
    ("infer_type",
      leanRight (seq ["infer", ref "_type_identifier", maybe (seq ["extends", ref "type"])])),
    ("index_type_query", seq ["keyof", ref "primary_type"]),
    ("readonly_type", seq ["readonly", ref "type"]),
    ("flow_maybe_type", leanRight (seq ["?", ref "primary_type"])),
    ("existential_type", "*"),
    ("generic_type",
      firm "call"
        [role "name" (oneOf [ref "_type_identifier", ref "nested_type_identifier"]),
         role "type_arguments" (ref "type_arguments")]),
    ("nested_type_identifier",
      firm "member"
        [role "module" (oneOf [name, ref "nested_identifier"]), ".",
         role "name" (ref "_type_identifier")]),
    ("_type_identifier", nameAs "type_identifier"),
    ("type_arguments", seq ["<", commas1 (ref "type"), maybe ",", ">"]),
    ("type_parameters", seq ["<", commas1 (ref "type_parameter"), maybe ",", ">"]),
    ("type_parameter",
      seq
        [maybe "const", role "name" (ref "_type_identifier"),
         role "constraint" (maybe (ref "constraint")), role "value" (maybe (ref "default_type"))]),
    ("default_type", seq ["=", ref "type"]),
    ("constraint", seq [oneOf ["extends", ":"], ref "type"]),
    ("function_type",
      leanLeft
        (seq
          [role "type_parameters" (maybe (ref "type_parameters")),
           role "parameters" (ref "formal_parameters"), "=>",
           role "return_type" (oneOf [ref "type", ref "asserts", ref "type_predicate"])])),
    ("constructor_type",
      leanLeft
        (seq
          [maybe "abstract", "new", role "type_parameters" (maybe (ref "type_parameters")),
           role "parameters" (ref "formal_parameters"), "=>", role "type" (ref "type")])),
    ("asserts", seq ["asserts", oneOf [ref "type_predicate", name, word "this"]]),
    ("asserts_annotation", seq [":", ref "asserts"]),
    ("type_predicate",
      seq
        [role "name" (oneOf [name, word "this", refAs "predefined_type" "identifier"]), "is",
         role "type" (ref "type")]),
    ("type_predicate_annotation", seq [":", ref "type_predicate"]),
    ("template_type", seq ["$\x7b", oneOf [ref "primary_type", ref "infer_type"], "\x7d"]),
    ("template_literal_type",
      seq
        ["\x60",
         many (oneOf [nodeAs "string_fragment" (lexeme .templateText), ref "template_type"]),
         "\x60"])]

/-- The rules of types that are taken from values. -/
def typeQueryRules : List (String × Rule) :=
  [("type_query",
      leanRight
        (seq
          ["typeof",
           oneOf
             [refAs "_type_query_subscript_expression" "subscript_expression",
              refAs "_type_query_member_expression" "member_expression",
              refAs "_type_query_call_expression" "call_expression",
              refAs "_type_query_instantiation_expression" "instantiation_expression", name,
              word "this"]])),
    ("_type_query_member_expression",
      seq
        [role "object"
           (oneOf
             [name, word "this",
              refAs "_type_query_subscript_expression" "subscript_expression",
              refAs "_type_query_member_expression" "member_expression",
              refAs "_type_query_call_expression" "call_expression"]),
         oneOf [".", "?."],
         role "property" (oneOf [lexeme .privateName, nameAs "property_identifier"])]),
    ("_type_query_subscript_expression",
      seq
        [role "object"
           (oneOf
             [name, word "this",
              refAs "_type_query_subscript_expression" "subscript_expression",
              refAs "_type_query_member_expression" "member_expression",
              refAs "_type_query_call_expression" "call_expression"]),
         maybe "?.", "[",
         role "index" (oneOf [ref "predefined_type", ref "string", lexeme .number]), "]"]),
    ("_type_query_call_expression",
      seq
        [role "function"
           (oneOf
             [ref "import", name, refAs "_type_query_member_expression" "member_expression",
              refAs "_type_query_subscript_expression" "subscript_expression"]),
         role "arguments" (ref "arguments")]),
    ("_type_query_instantiation_expression",
      seq
        [role "function"
           (oneOf
             [ref "import", name, refAs "_type_query_member_expression" "member_expression",
              refAs "_type_query_subscript_expression" "subscript_expression"]),
         role "type_arguments" (ref "type_arguments")]),
    ("_type_query_member_expression_in_type_annotation",
      seq
        [role "object"
           (oneOf
             [ref "import",
              refAs "_type_query_member_expression_in_type_annotation" "member_expression",
              refAs "_type_query_call_expression_in_type_annotation" "call_expression"]),
         ".", role "property" (oneOf [lexeme .privateName, nameAs "property_identifier"])]),
    ("_import_type_with_arguments",
      seq
        [role "function"
           (refAs "_type_query_member_expression_in_type_annotation" "member_expression"),
         role "type_arguments" (ref "type_arguments")]),
    ("_type_query_call_expression_in_type_annotation",
      seq
        [role "function"
           (oneOf
             [ref "import",
              refAs "_type_query_member_expression_in_type_annotation" "member_expression"]),
         role "arguments" (ref "arguments")])]

def objectTypeRules : List (String × Rule) :=
  [("object_type",
      seq
        [oneOf ["\x7b", "\x7b|"],
         maybe
           (seq
             [maybe (oneOf [",", ";"]),
              separated (oneOf [",", ref "_semicolon"])
                (oneOf
                  [ref "export_statement", ref "property_signature",
                   ref "call_signature", ref "construct_signature",
                   ref "index_signature", ref "method_signature"]),
              maybe (oneOf [",", ref "_semicolon"])]),
         oneOf ["\x7d", "|\x7d"]]),
    ("property_signature",
      seq
        (memberModifiers ++
         [role "name" (ref "_property_name"), maybe "?",
          role "type" (maybe (ref "type_annotation"))])),
    ("call_signature", ref "_call_signature"),
    ("construct_signature",
      seq
        [maybe "abstract", "new", role "type_parameters" (maybe (ref "type_parameters")),
         role "parameters" (ref "formal_parameters"),
         role "type" (maybe (ref "type_annotation"))]),
    ("index_signature",
      seq
        [maybe (seq [role "sign" (maybe (oneOf ["-", "+"])), "readonly"]), "[",
         oneOf
           [seq
              [role "name" (oneOf [name, refAs "_reserved_identifier" "identifier"]), ":",
               role "index_type" (ref "type")],
            ref "mapped_type_clause"],
         "]",
         role "type"
           (oneOf
             [ref "type_annotation", ref "omitting_type_annotation",
              ref "adding_type_annotation", ref "opting_type_annotation"])]),
    ("mapped_type_clause",
      seq
        [role "name" (ref "_type_identifier"), "in", role "type" (ref "type"),
         maybe (seq ["as", role "alias" (ref "type")])])]

end SourceAtlas.Grammar
