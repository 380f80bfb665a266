/-
# Rules of typed expressions and declarations

Expressions that say more about the type of a value, and the declarations of the type language:
aliases, interfaces, enumerations, name spaces and what is defined elsewhere.
-/

import SourceAtlas.Grammar.Rule

namespace SourceAtlas.Grammar

open Rule

def typedExpressionRules : List (String × Rule) :=
  [("non_null_expression", firmLeft "unary" [ref "expression", "!"]),
    ("as_expression", firmLeft "binary" [ref "expression", "as", oneOf ["const", ref "type"]]),
    ("satisfies_expression", firmLeft "binary" [ref "expression", "satisfies", ref "type"]),
    ("instantiation_expression",
      firm "instantiation" [ref "expression", role "type_arguments" (ref "type_arguments")])]

/-- A type before an expression, where there is no markup. -/
def typeAssertionRules : List (String × Rule) :=
  [("type_assertion", firmLeft "unary" [ref "type_arguments", ref "expression"])]

def typedDeclarationRules : List (String × Rule) :=
  [("type_alias_declaration",
      firm "declare"
        ["type", role "name" (ref "_type_identifier"),
         role "type_parameters" (maybe (ref "type_parameters")), "=", role "value" (ref "type"),
         ref "_semicolon"]),
    ("interface_declaration",
      firm "declare"
        ["interface", role "name" (ref "_type_identifier"),
         role "type_parameters" (maybe (ref "type_parameters")), maybe (ref "extends_type_clause"),
         role "body" (refAs "object_type" "interface_body")]),
    ("extends_type_clause",
      seq
        ["extends",
         commas1
           (role "type"
             (oneOf
               [ref "_type_identifier", ref "nested_type_identifier", ref "generic_type"]))]),
    ("enum_declaration",
      firm "declare" [maybe "const", "enum", role "name" name, role "body" (ref "enum_body")]),
    ("enum_body",
      seq
        ["\x7b",
         maybe
           (seq
             [commas1 (oneOf [role "name" (ref "_property_name"), ref "enum_assignment"]),
              maybe ","]),
         "\x7d"]),
    ("enum_assignment", seq [role "name" (ref "_property_name"), ref "_initializer"]),
    ("module", seq ["module", ref "_module"]),
    ("internal_module", seq ["namespace", ref "_module"]),
    ("_module",
      leanRight
        (seq
          [role "name" (oneOf [ref "string", name, ref "nested_identifier"]),
           role "body" (maybe (ref "statement_block"))])),
    ("ambient_declaration",
      seq
        ["declare",
         oneOf
           [ref "declaration", seq ["global", ref "statement_block"],
            seq
              ["module", ".", nameAs "property_identifier", ":", ref "type",
               ref "_semicolon"]]]),
    ("import_alias",
      seq ["import", name, "=", oneOf [name, ref "nested_identifier"], ref "_semicolon"]),
    ("import_require_clause", seq [name, "=", "require", "(", role "source" (ref "string"), ")"])]

end SourceAtlas.Grammar
