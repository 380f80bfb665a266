/-
# Rules of markup elements

Elements with a name, attributes and children, elements that close themselves, and fragments without
a name. The closing tag may have any name.
-/

import SourceAtlas.Grammar.Rules.Expressions

namespace SourceAtlas.Grammar

open Rule

def markupRules (d : Dialect) : List (String × Rule) :=
  [("_jsx_element", oneOf [ref "jsx_element", ref "jsx_self_closing_element"]),
    ("jsx_element",
      seq
        [role "open_tag" (ref "jsx_opening_element"), many (ref "_jsx_child"),
         role "close_tag" (ref "jsx_closing_element")]),
    ("jsx_expression",
      seq
        ["\x7b", maybe (oneOf [ref "expression", ref "sequence_expression", ref "spread_element"]),
         "\x7d"]),
    ("_jsx_child",
      oneOf
        [lexeme .markupText, lexeme .characterReference, ref "_jsx_element",
         ref "jsx_expression"]),
    ("jsx_opening_element",
      weighed (-1)
        (seq
          (if d.hasTypes then [ref "_jsx_tag_start", ">"]
           else
             ["<",
              maybe
                (seq
                  [role "name" (ref "_jsx_element_name"),
                   many (role "attribute" (ref "_jsx_attribute"))]),
              ">"]))),
    ("_jsx_identifier", oneOf [nodeAs "identifier" (lexeme .hyphenatedName), name]),
    ("jsx_namespace_name", seq [ref "_jsx_identifier", ":", ref "_jsx_identifier"]),
    ("_jsx_element_name",
      oneOf
        [ref "_jsx_identifier", refAs "nested_identifier" "member_expression",
         ref "jsx_namespace_name"]),
    ("jsx_closing_element", seq ["</", maybe (role "name" (ref "_jsx_element_name")), ">"]),
    ("jsx_self_closing_element",
      if d.hasTypes then weighed (-1) (seq [ref "_jsx_tag_start", "/>"])
      else
        seq
          ["<", role "name" (ref "_jsx_element_name"),
           many (role "attribute" (ref "_jsx_attribute")), "/>"]),
    ("_jsx_attribute", oneOf [ref "jsx_attribute", ref "jsx_expression"]),
    ("_jsx_attribute_name",
      oneOf [refAs "_jsx_identifier" "property_identifier", ref "jsx_namespace_name"]),
    ("jsx_attribute",
      seq [ref "_jsx_attribute_name", maybe (seq ["=", ref "_jsx_attribute_value"])]),
    ("_jsx_string",
      oneOf
        [seq
           ["\"",
            many
              (oneOf
                [nodeAs "string_fragment" (lexeme .doubleMarkupText),
                 lexeme .characterReference]),
            "\""],
         seq
           ["\x27",
            many
              (oneOf
                [nodeAs "string_fragment" (lexeme .singleMarkupText),
                 lexeme .characterReference]),
            "\x27"]]),
    ("_jsx_attribute_value",
      oneOf [refAs "_jsx_string" "string", ref "jsx_expression", ref "_jsx_element"])]

/-- The start of a tag, where types are written. -/
def typedTagRules (d : Dialect) : List (String × Rule) :=
  [("_jsx_tag_start",
      seq
        ["<",
         maybe
           (seq
             [oneOf
                [role "name" (oneOf [ref "_jsx_identifier", ref "jsx_namespace_name"]),
                 seq
                   ([role "name" (oneOf [name, refAs "nested_identifier" "member_expression"])] ++
                    typeArguments d)],
              many (role "attribute" (ref "_jsx_attribute"))])])]

end SourceAtlas.Grammar
