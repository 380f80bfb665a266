/-
# Rules of expressions

Operands with everything that can stand before and after them, operators by how firmly they hold
their operands, conditions, assignments and calls. An expression that can stand before a member or
an argument is a primary one.
-/

import SourceAtlas.Grammar.Rule

namespace SourceAtlas.Grammar

open Rule

/-- The type arguments of a call, where types are written. -/
def typeArguments (d : Dialect) : List Rule :=
  d.typed [role "type_arguments" (maybe (ref "type_arguments"))]

/-- The mark before a member of something that may be missing. -/
def chainMark (d : Dialect) : Rule :=
  if d.hasTypes then ref "optional_chain" else terminal (.named "optional_chain" "?.")

/-- The operators between two operands, with how firmly they hold them. -/
def binaryOperators : List (String × String × Side) :=
  [("&&", "logical_and", .left), ("||", "logical_or", .left), (">>", "binary_shift", .left),
    (">>>", "binary_shift", .left), ("<<", "binary_shift", .left), ("&", "bitwise_and", .left),
    ("^", "bitwise_xor", .left), ("|", "bitwise_or", .left), ("+", "binary_plus", .left),
    ("-", "binary_plus", .left), ("*", "binary_times", .left), ("/", "binary_times", .left),
    ("%", "binary_times", .left), ("**", "binary_exp", .right), ("<", "binary_relation", .left),
    ("<=", "binary_relation", .left), ("==", "binary_equality", .left),
    ("===", "binary_equality", .left), ("!=", "binary_equality", .left),
    ("!==", "binary_equality", .left), (">=", "binary_relation", .left),
    (">", "binary_relation", .left), ("??", "ternary", .left),
    ("instanceof", "binary_relation", .left), ("in", "binary_relation", .left)]

/-- An operator between two operands. Only `in` may ask for a private name. -/
def binaryOperation : String × String × Side → Rule
  | (operator, level, side) =>
    let left :=
      if operator == "in" then oneOf [ref "expression", lexeme .privateName]
      else ref "expression"
    held (.name level) (some side)
      (seq [role "left" left, role "operator" operator, role "right" (ref "expression")])

def expressionRules (d : Dialect) : List (String × Rule) :=
  [("parenthesized_expression",
      seq
        ["(",
         oneOf
           [seq
              ([ref "expression"] ++ d.typed [role "type" (maybe (ref "type_annotation"))]),
            ref "sequence_expression"],
         ")"]),
    ("_expressions", oneOf [ref "expression", ref "sequence_expression"]),
    ("expression",
      oneOf
        (d.typed
           [ref "as_expression", ref "satisfies_expression", ref "instantiation_expression",
            ref "internal_module"] ++
         (if d.hasMarkup then [] else [ref "type_assertion"]) ++ [ref "primary_expression"] ++
         (if d.hasMarkup then [ref "_jsx_element"] else []) ++
         [ref "assignment_expression", ref "augmented_assignment_expression",
          ref "await_expression", ref "unary_expression", ref "binary_expression",
          ref "ternary_expression", ref "update_expression", ref "new_expression",
          ref "yield_expression"])),
    ("primary_expression",
      oneOf
        ([ref "subscript_expression", ref "member_expression", ref "parenthesized_expression",
          ref "_identifier", refAs "_reserved_identifier" "identifier", word "this", word "super",
          lexeme .number, ref "string", ref "template_string", ref "regex", word "true",
          word "false", word "null", ref "object", ref "array", ref "function_expression",
          ref "arrow_function", ref "generator_function", ref "class", ref "meta_property",
          ref "call_expression"] ++
         d.typed [ref "non_null_expression"])),
    ("yield_expression",
      leanRight (seq ["yield", maybe (oneOf [seq ["*", ref "expression"], ref "expression"])])),
    ("call_expression",
      oneOf
        [firm "call"
           ([role "function" (oneOf [ref "expression", ref "import"])] ++ typeArguments d ++
            [role "arguments" (ref "arguments")]),
         firm "template_call"
           [role "function" (oneOf [ref "primary_expression", ref "new_expression"]),
            role "arguments" (ref "template_string")],
         firm "member"
           ([role "function" (ref "primary_expression")] ++
            d.untyped [role "optional_chain" (chainMark d)] ++ d.typed [sign "?."] ++
            typeArguments d ++ [role "arguments" (ref "arguments")])]),
    ("new_expression",
      firmRight "new"
        ([sign "new"] ++
         d.untyped
           [role "constructor" (oneOf [ref "primary_expression", ref "new_expression"]),
            role "arguments" (maybe (weighed 1 (ref "arguments")))] ++
         d.typed [role "constructor" (ref "primary_expression")] ++ typeArguments d ++
         d.typed [role "arguments" (maybe (ref "arguments"))])),
    ("await_expression", firm "unary_void" ["await", ref "expression"]),
    ("member_expression",
      firm "member"
        [role "object" (oneOf [ref "expression", ref "primary_expression", ref "import"]),
         oneOf [".", role "optional_chain" (chainMark d)],
         role "property" (oneOf [lexeme .privateName, nameAs "property_identifier"])]),
    ("subscript_expression",
      firmRight "member"
        [role "object" (oneOf [ref "expression", ref "primary_expression"]),
         maybe (role "optional_chain" (chainMark d)), "[", role "index" (ref "_expressions"), "]"]),
    ("_lhs_expression",
      oneOf
        ([ref "member_expression", ref "subscript_expression", ref "_identifier",
          refAs "_reserved_identifier" "identifier", ref "_destructuring_pattern"] ++
         d.typed [ref "non_null_expression"])),
    ("assignment_expression",
      firmRight "assign"
        (d.typed [maybe "using"] ++
         [role "left" (oneOf [ref "parenthesized_expression", ref "_lhs_expression"]), "=",
          role "right" (ref "expression")])),
    ("_augmented_assignment_lhs",
      oneOf
        ([ref "member_expression", ref "subscript_expression",
          refAs "_reserved_identifier" "identifier", name, ref "parenthesized_expression"] ++
         d.typed [ref "non_null_expression"])),
    ("augmented_assignment_expression",
      firmRight "assign"
        [role "left" (ref "_augmented_assignment_lhs"),
         role "operator"
           (oneOf
             ["+=", "-=", "*=", "/=", "%=", "^=", "&=", "|=", ">>=", ">>>=", "<<=", "**=",
              "&&=", "||=", "??="]),
         role "right" (ref "expression")]),
    ("spread_element", seq ["...", ref "expression"]),
    ("ternary_expression",
      firmRight "ternary"
        [role "condition" (ref "expression"), tokenAs "?" (lexeme .questionMark),
         role "consequence" (ref "expression"), ":", role "alternative" (ref "expression")]),
    ("binary_expression", oneOf (binaryOperators.map binaryOperation)),
    ("unary_expression",
      firmLeft "unary_void"
        [role "operator" (oneOf ["!", "~", "-", "+", "typeof", "void", "delete"]),
         role "argument" (ref "expression")]),
    ("update_expression",
      leanLeft
        (oneOf
          [seq [role "argument" (ref "expression"), role "operator" (oneOf ["++", "--"])],
           seq [role "operator" (oneOf ["++", "--"]), role "argument" (ref "expression")]])),
    ("sequence_expression", leanRight (commas1 (ref "expression"))),
    ("meta_property", oneOf [seq ["new", ".", "target"], seq ["import", ".", "meta"]]),
    ("nested_identifier",
      firm "member"
        [role "object" (oneOf [name, refAs "nested_identifier" "member_expression"]), ".",
         role "property" (nameAs "property_identifier")]),
    ("arguments", seq ["(", commas (maybe (oneOf [ref "expression", ref "spread_element"])), ")"]),
    ("_identifier", oneOf [word "undefined", name]),
    ("_reserved_identifier",
      oneOf <|
        (d.typed
           ["declare", "namespace", "type", "public", "private", "protected", "override",
            "readonly", "module", "any", "number", "boolean", "string", "symbol", "export",
            "object", "new", "readonly"] ++
         ["get", "set", "async", "static", "export", "let"]).map sign)]

end SourceAtlas.Grammar
