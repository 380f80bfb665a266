/-
# Rules of functions and classes

Functions, arrow functions, classes and their members. Where types are written, a function or method
without a body is only a signature, and every parameter is a node of its own.
-/

import SourceAtlas.Grammar.Rules.Expressions

namespace SourceAtlas.Grammar

open Rule

def className (d : Dialect) : Rule := if d.hasTypes then ref "_type_identifier" else name

/-- What a decorator may be without parentheses around it. -/
def decoratorForms : List Rule :=
  [name, refAs "decorator_member_expression" "member_expression",
    refAs "decorator_call_expression" "call_expression"]

/-- The word before a static member. Before the end of a row, `static get` is one mark. -/
def staticMark : Rule := maybe (oneOf ["static", tokenAs "static get" (lexeme .staticGetRow)])

/-- The words before a member, where types are written. -/
def memberModifiers : List Rule :=
  [maybe (ref "accessibility_modifier"), maybe "static", maybe (ref "override_modifier"),
    maybe "readonly"]

def plainClassParts : List Rule :=
  [seq [role "member" (ref "method_definition"), maybe ";"],
    seq [role "member" (ref "field_definition"), ref "_semicolon"],
    role "member" (ref "class_static_block"), ";"]

/-- The members of a class, where types are written. A signature does not end before a brace on a
new row, which would be the body of the method. -/
def typedClassParts : List Rule :=
  [seq
      [many (role "decorator" (ref "decorator")), ref "method_definition",
        maybe (ref "_semicolon")],
    seq [ref "method_signature", oneOf [lexeme .missingSignatureEnd, ","]],
    ref "class_static_block",
    seq
      [oneOf
          [ref "abstract_method_signature", ref "index_signature", ref "method_signature",
            ref "public_field_definition"],
        oneOf [ref "_semicolon", ","]],
    ";"]

def functionRules (d : Dialect) : List (String × Rule) :=
  [("function_expression",
      firm "literal"
        [maybe "async", "function", role "name" (maybe name), ref "_call_signature",
         role "body" (ref "statement_block")]),
    ("function_declaration",
      firmRight "declare"
        [maybe "async", "function", role "name" name, ref "_call_signature",
         role "body" (ref "statement_block"), maybe (lexeme .missingSemicolon)]),
    ("generator_function",
      firm "literal"
        [maybe "async", "function", "*", role "name" (maybe name), ref "_call_signature",
         role "body" (ref "statement_block")]),
    ("generator_function_declaration",
      firmRight "declare"
        [maybe "async", "function", "*", role "name" name, ref "_call_signature",
         role "body" (ref "statement_block"), maybe (lexeme .missingSemicolon)]),
    ("arrow_function",
      seq
        [maybe "async",
         oneOf
           [role "parameter" (oneOf [refAs "_reserved_identifier" "identifier", name]),
            ref "_call_signature"],
         "=>", role "body" (oneOf [ref "expression", ref "statement_block"])]),
    ("_call_signature",
      seq
        (d.typed [role "type_parameters" (maybe (ref "type_parameters"))] ++
         [role "parameters" (ref "formal_parameters")] ++
         d.typed
           [role "return_type"
              (maybe
                (oneOf
                  [ref "type_annotation", ref "asserts_annotation",
                   ref "type_predicate_annotation"]))])),
    ("formal_parameters",
      seq ["(", maybe (seq [commas1 (ref "_formal_parameter"), maybe ","]), ")"]),
    ("_formal_parameter",
      oneOf
        (d.untyped [ref "pattern", ref "assignment_pattern"] ++
         d.typed [ref "required_parameter", ref "optional_parameter"]))]

def classRules (d : Dialect) : List (String × Rule) :=
  [("class",
      firm "literal"
        ([many (role "decorator" (ref "decorator")), "class",
          role "name" (maybe (className d))] ++
         d.typed [role "type_parameters" (maybe (ref "type_parameters"))] ++
         [maybe (ref "class_heritage"), role "body" (ref "class_body")])),
    ("class_declaration",
      held (.name "declare") (if d.hasTypes then some .left else none)
        (seq
          ([many (role "decorator" (ref "decorator")), "class", role "name" (className d)] ++
           d.typed [role "type_parameters" (maybe (ref "type_parameters"))] ++
           [maybe (ref "class_heritage"), role "body" (ref "class_body"),
            maybe (lexeme .missingSemicolon)]))),
    ("class_heritage",
      oneOf
        (d.untyped [seq ["extends", ref "expression"]] ++
         d.typed
           [seq [ref "extends_clause", maybe (ref "implements_clause")],
            ref "implements_clause"])),
    ("class_body",
      seq
        ["\x7b", many (oneOf (if d.hasTypes then typedClassParts else plainClassParts)), "\x7d"]),
    ("class_static_block",
      seq ["static", maybe (lexeme .missingSemicolon), role "body" (ref "statement_block")]),
    ("method_definition",
      if d.hasTypes then
        leanLeft
          (seq
            (memberModifiers ++
             [maybe "async", maybe (oneOf ["get", "set", "*"]),
              role "name" (ref "_property_name"), maybe "?", ref "_call_signature",
              role "body" (ref "statement_block")]))
      else
        seq
          [many (role "decorator" (ref "decorator")), staticMark, maybe "async",
           maybe (oneOf ["get", "set", "*"]), role "name" (ref "_property_name"),
           role "parameters" (ref "formal_parameters"), role "body" (ref "statement_block")]),
    ("decorator",
      seq
        ["@",
         oneOf
           (decoratorForms ++
            d.typed [refAs "decorator_parenthesized_expression" "parenthesized_expression"])]),
    ("decorator_member_expression",
      firm "member"
        [role "object" (oneOf [name, refAs "decorator_member_expression" "member_expression"]),
         ".", role "property" (nameAs "property_identifier")]),
    ("decorator_call_expression",
      firm "call"
        ([role "function"
            (oneOf [name, refAs "decorator_member_expression" "member_expression"])] ++
         typeArguments d ++ [role "arguments" (ref "arguments")]))]

/-- The fields of classes, where no types are written. -/
def fieldRules : List (String × Rule) :=
  [("field_definition",
      seq
        [many (role "decorator" (ref "decorator")), staticMark,
         role "property" (ref "_property_name"), maybe (ref "_initializer")])]

/-- The members and parameters that only languages with types have. -/
def typedMemberRules : List (String × Rule) :=
  [("public_field_definition",
      seq
        [many (role "decorator" (ref "decorator")),
         maybe
           (oneOf
             [seq ["declare", maybe (ref "accessibility_modifier")],
              seq [ref "accessibility_modifier", maybe "declare"]]),
         oneOf
           [seq [maybe "static", maybe (ref "override_modifier"), maybe "readonly"],
            seq [maybe "abstract", maybe "readonly"], seq [maybe "readonly", maybe "abstract"],
            maybe "accessor"],
         role "name" (ref "_property_name"), maybe (oneOf ["?", "!"]),
         role "type" (maybe (ref "type_annotation")), maybe (ref "_initializer")]),
    ("method_signature",
      seq
        (memberModifiers ++
         [maybe "async", maybe (oneOf ["get", "set", "*"]), role "name" (ref "_property_name"),
          maybe "?", ref "_call_signature"])),
    ("abstract_method_signature",
      seq
        [maybe (ref "accessibility_modifier"), "abstract", maybe (ref "override_modifier"),
         maybe (oneOf ["get", "set", "*"]), role "name" (ref "_property_name"), maybe "?",
         ref "_call_signature"]),
    ("function_signature",
      seq
        [maybe "async", "function", role "name" name, ref "_call_signature",
         oneOf [ref "_semicolon", lexeme .missingSignatureEnd]]),
    ("decorator_parenthesized_expression",
      seq
        ["(",
         oneOf
           [name, refAs "decorator_member_expression" "member_expression",
            refAs "decorator_call_expression" "call_expression"],
         ")"]),
    ("optional_chain", "?."),
    ("extends_clause", seq ["extends", commas1 (ref "_extends_clause_single")]),
    ("_extends_clause_single",
      firm "extends"
        [role "value" (ref "expression"), role "type_arguments" (maybe (ref "type_arguments"))]),
    ("implements_clause", seq ["implements", commas1 (ref "type")]),
    ("abstract_class_declaration",
      firm "declare"
        [many (role "decorator" (ref "decorator")), "abstract", "class",
         role "name" (ref "_type_identifier"),
         role "type_parameters" (maybe (ref "type_parameters")), maybe (ref "class_heritage"),
         role "body" (ref "class_body")]),
    ("accessibility_modifier", oneOf ["public", "private", "protected"]),
    ("override_modifier", "override"),
    ("required_parameter",
      seq
        [ref "_parameter_name", role "type" (maybe (ref "type_annotation")),
         maybe (ref "_initializer")]),
    ("optional_parameter",
      seq
        [ref "_parameter_name", "?", role "type" (maybe (ref "type_annotation")),
         maybe (ref "_initializer")]),
    ("_parameter_name",
      seq
        [many (role "decorator" (ref "decorator")), maybe (ref "accessibility_modifier"),
         maybe (ref "override_modifier"), maybe "readonly",
         role "pattern" (oneOf [ref "pattern", word "this"])])]

end SourceAtlas.Grammar
