/-
# Rules of literals and patterns

Strings, templates, regular expressions, objects and arrays, and the patterns that take objects and
arrays apart.
-/

import SourceAtlas.Grammar.Rule

namespace SourceAtlas.Grammar

open Rule

def literalRules : List (String × Rule) :=
  [("string",
      oneOf
        [seq
           ["\"", many (oneOf [nodeAs "string_fragment" (lexeme .doubleText), lexeme .escape]),
            "\""],
         seq
           ["\x27",
            many (oneOf [nodeAs "string_fragment" (lexeme .singleText), lexeme .escape]),
            "\x27"]]),
    ("template_string",
      seq
        ["\x60",
         many
           (oneOf
             [nodeAs "string_fragment" (lexeme .templateText), lexeme .escape,
              ref "template_substitution"]),
         "\x60"]),
    ("template_substitution", seq ["$\x7b", ref "_expressions", "\x7d"]),
    ("regex",
      seq
        ["/", role "pattern" (lexeme .regexBody), lexeme .regexEnd,
         maybe (role "flags" (lexeme .regexFlags))]),
    ("object",
      firm "object"
        ["\x7b",
         commas
           (maybe
             (oneOf
               [ref "pair", ref "spread_element", ref "method_definition",
                nodeAs "shorthand_property_identifier"
                  (oneOf [name, ref "_reserved_identifier"])])),
         "\x7d"]),
    ("array", seq ["[", commas (maybe (oneOf [ref "expression", ref "spread_element"])), "]"]),
    ("pair", seq [role "key" (ref "_property_name"), ":", role "value" (ref "expression")]),
    ("_property_name",
      oneOf
        [nodeAs "property_identifier" (oneOf [name, ref "_reserved_identifier"]),
         lexeme .privateName, ref "string", lexeme .number, ref "computed_property_name"]),
    ("computed_property_name", seq ["[", ref "expression", "]"])]

def patternRules : List (String × Rule) :=
  [("pattern", weighed (-1) (oneOf [ref "_lhs_expression", ref "rest_pattern"])),
    ("rest_pattern", leanRight (seq ["...", ref "_lhs_expression"])),
    ("_destructuring_pattern", oneOf [ref "object_pattern", ref "array_pattern"]),
    ("object_pattern",
      firm "object"
        ["\x7b",
         commas
           (maybe
             (oneOf
               [ref "pair_pattern", ref "rest_pattern", ref "object_assignment_pattern",
                nodeAs "shorthand_property_identifier_pattern"
                  (oneOf [name, ref "_reserved_identifier"])])),
         "\x7d"]),
    ("pair_pattern",
      seq
        [role "key" (ref "_property_name"), ":",
         role "value" (oneOf [ref "pattern", ref "assignment_pattern"])]),
    ("assignment_pattern",
      seq [role "left" (ref "pattern"), "=", role "right" (ref "expression")]),
    ("object_assignment_pattern",
      seq
        [role "left"
           (oneOf
             [nodeAs "shorthand_property_identifier_pattern"
                (oneOf [ref "_reserved_identifier", name]),
              ref "_destructuring_pattern"]),
         "=", role "right" (ref "expression")]),
    ("array_pattern",
      seq ["[", commas (maybe (oneOf [ref "pattern", ref "assignment_pattern"])), "]"])]

end SourceAtlas.Grammar
