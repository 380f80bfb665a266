/-
# Rules of statements

Blocks, control flow and the declaration of variables. A semicolon at the end of a statement may be
left out in many places; such a semicolon is a token of its own that covers nothing.
-/

import SourceAtlas.Grammar.Rule

namespace SourceAtlas.Grammar

open Rule

def statementRules (d : Dialect) : List (String × Rule) :=
  [("statement",
      oneOf
        [ref "export_statement", ref "import_statement", ref "debugger_statement",
         ref "expression_statement", ref "declaration", ref "statement_block", ref "if_statement",
         ref "switch_statement", ref "for_statement", ref "for_in_statement",
         ref "while_statement", ref "do_statement", ref "try_statement", ref "with_statement",
         ref "break_statement", ref "continue_statement", ref "return_statement",
         ref "throw_statement", ref "empty_statement", ref "labeled_statement"]),
    ("declaration",
      oneOf
        ([ref "function_declaration", ref "generator_function_declaration",
          ref "class_declaration", ref "lexical_declaration", ref "variable_declaration"] ++
         d.untyped [ref "using_declaration"] ++
         d.typed
           [ref "function_signature", ref "abstract_class_declaration", ref "module",
            firm "declare" [ref "internal_module"], ref "type_alias_declaration",
            ref "enum_declaration", ref "interface_declaration", ref "import_alias",
            ref "ambient_declaration"])),
    ("expression_statement", seq [ref "_expressions", ref "_semicolon"]),
    ("variable_declaration", seq ["var", commas1 (ref "variable_declarator"), ref "_semicolon"]),
    ("lexical_declaration",
      seq
        [role "kind" (oneOf ["let", "const"]), commas1 (ref "variable_declarator"),
         ref "_semicolon"]),
    ("variable_declarator",
      oneOf
        (d.untyped
           [seq
              [role "name" (oneOf [name, nodeAs "identifier" "of", ref "_destructuring_pattern"]),
               maybe (ref "_initializer")]] ++
         d.typed
           [seq
              [role "name" (oneOf [name, ref "_destructuring_pattern"]),
               role "type" (maybe (ref "type_annotation")), maybe (ref "_initializer")],
            firm "declare" [role "name" name, "!", role "type" (ref "type_annotation")]])),
    ("_initializer", seq ["=", role "value" (ref "expression")]),
    ("statement_block",
      leanRight (seq ["\x7b", many (ref "statement"), "\x7d", maybe (lexeme .missingSemicolon)])),
    ("else_clause", seq ["else", ref "statement"]),
    ("if_statement",
      leanRight
        (seq
          ["if", role "condition" (ref "parenthesized_expression"),
           role "consequence" (ref "statement"),
           maybe (role "alternative" (ref "else_clause"))])),
    ("switch_statement",
      seq
        ["switch", role "value" (ref "parenthesized_expression"),
         role "body" (ref "switch_body")]),
    ("switch_body", seq ["\x7b", many (oneOf [ref "switch_case", ref "switch_default"]), "\x7d"]),
    ("switch_case",
      seq ["case", role "value" (ref "_expressions"), ":", role "body" (many (ref "statement"))]),
    ("switch_default", seq ["default", ":", role "body" (many (ref "statement"))]),
    ("for_statement",
      seq
        ["for", "(",
         oneOf
           [role "initializer" (oneOf [ref "lexical_declaration", ref "variable_declaration"]),
            seq [role "initializer" (ref "_expressions"), ";"],
            role "initializer" (ref "empty_statement")],
         role "condition" (oneOf [seq [ref "_expressions", ";"], ref "empty_statement"]),
         role "increment" (maybe (ref "_expressions")), ")", role "body" (ref "statement")]),
    ("for_in_statement",
      seq ["for", maybe "await", ref "_for_header", role "body" (ref "statement")]),
    ("_for_header",
      seq
        ["(",
         oneOf
           ([role "left" (oneOf [ref "_lhs_expression", ref "parenthesized_expression"]),
             seq
               [role "kind" "var", role "left" (oneOf [name, ref "_destructuring_pattern"]),
                maybe (ref "_initializer")],
             seq
               [role "kind" (oneOf ["let", "const"]),
                role "left" (oneOf [name, ref "_destructuring_pattern"]),
                maybe (lexeme .missingSemicolon)]] ++
            d.untyped
              [seq
                 [role "kind" (oneOf ["using", seq ["await", "using"]]),
                  role "left" (oneOf [name, ref "_destructuring_pattern"]),
                  maybe (lexeme .missingSemicolon)]]),
         role "operator" (oneOf ["in", "of"]), role "right" (ref "_expressions"), ")"]),
    ("while_statement",
      seq
        ["while", role "condition" (ref "parenthesized_expression"),
         role "body" (ref "statement")]),
    ("do_statement",
      leanRight
        (seq
          ["do", role "body" (ref "statement"), "while",
           role "condition" (ref "parenthesized_expression"), maybe (ref "_semicolon")])),
    ("try_statement",
      seq
        ["try", role "body" (ref "statement_block"), maybe (role "handler" (ref "catch_clause")),
         maybe (role "finalizer" (ref "finally_clause"))]),
    ("catch_clause",
      seq
        ["catch",
         maybe
           (seq
             ([sign "(", role "parameter" (oneOf [name, ref "_destructuring_pattern"])] ++
              d.typed [maybe (role "type" (ref "type_annotation"))] ++ [sign ")"])),
         role "body" (ref "statement_block")]),
    ("finally_clause", seq ["finally", role "body" (ref "statement_block")]),
    ("with_statement",
      seq ["with", role "object" (ref "parenthesized_expression"), role "body" (ref "statement")]),
    ("break_statement",
      seq ["break", role "label" (maybe (nameAs "statement_identifier")), ref "_semicolon"]),
    ("continue_statement",
      seq ["continue", role "label" (maybe (nameAs "statement_identifier")), ref "_semicolon"]),
    ("debugger_statement", seq ["debugger", ref "_semicolon"]),
    ("return_statement", seq ["return", maybe (ref "_expressions"), ref "_semicolon"]),
    ("throw_statement", seq ["throw", ref "_expressions", ref "_semicolon"]),
    ("empty_statement", ";"),
    ("labeled_statement",
      weighed (-1)
        (seq
          [role "label"
             (nodeAs "statement_identifier" (oneOf [name, ref "_reserved_identifier"])),
           ":", role "body" (ref "statement")])),
    ("_semicolon", oneOf [lexeme .missingSemicolon, ";"])]

/-- The declaration of variables that are given back at the end of a block. -/
def usingRules : List (String × Rule) :=
  [("using_declaration",
      seq
        [role "kind" (oneOf ["using", seq ["await", "using"]]),
         commas1 (ref "variable_declarator"), ref "_semicolon"])]

end SourceAtlas.Grammar
