/-
# Rules of files, imports and exports

A file is a list of statements. The statements that join files are imports of all forms, and exports
with or without a declaration.
-/

import SourceAtlas.Grammar.Rule

namespace SourceAtlas.Grammar

open Rule

/-- The name that an import binds. -/
def importedName (d : Dialect) : Rule :=
  if d.hasTypes then ref "_import_identifier" else name

def moduleRules (d : Dialect) : List (String × Rule) :=
  [("program", seq [maybe (lexeme .interpreterLine), many (ref "statement")]),
    ("export_statement",
      oneOf
        ([seq
            ["export",
             oneOf
               [seq
                  [oneOf ["*", ref "namespace_export", ref "export_clause"], ref "_from_clause",
                   maybe (ref "import_attribute")],
                ref "export_clause"],
             ref "_semicolon"],
          seq
            [many (role "decorator" (ref "decorator")), "export",
             oneOf
               [role "declaration" (ref "declaration"),
                seq
                  ["default",
                   oneOf
                     [role "declaration" (ref "declaration"),
                      seq [role "value" (ref "expression"), ref "_semicolon"]]]]]] ++
         d.typed
           [seq
              ["export", "type",
               oneOf
                 [seq
                    [oneOf ["*", ref "namespace_export", ref "export_clause"],
                     ref "_from_clause", maybe (ref "import_attribute")],
                  ref "export_clause"],
               ref "_semicolon"],
            seq ["export", "import", ref "import_alias"],
            seq ["export", "=", ref "expression", ref "_semicolon"],
            seq ["export", "as", "namespace", name, ref "_semicolon"]])),
    ("namespace_export", seq ["*", "as", ref "_module_export_name"]),
    ("export_clause", seq ["\x7b", commas (ref "export_specifier"), maybe ",", "\x7d"]),
    ("export_specifier",
      seq
        (d.typed [maybe (oneOf ["type", "typeof"])] ++
         [role "name" (ref "_module_export_name"),
          maybe (seq ["as", role "alias" (ref "_module_export_name")])])),
    ("_module_export_name", oneOf [name, ref "string", "default"]),
    ("import", "import"),
    ("import_statement",
      seq
        ([sign "import"] ++ d.typed [maybe (oneOf ["type", "typeof"])] ++
         [oneOf
            ([seq [ref "import_clause", ref "_from_clause"]] ++
             d.typed [ref "import_require_clause"] ++ [role "source" (ref "string")]),
          maybe (ref "import_attribute"), ref "_semicolon"])),
    ("import_clause",
      oneOf
        [ref "namespace_import", ref "named_imports",
         seq
           [importedName d,
            maybe (seq [",", oneOf [ref "namespace_import", ref "named_imports"]])]]),
    ("_from_clause", seq ["from", role "source" (ref "string")]),
    ("namespace_import", seq ["*", "as", name]),
    ("named_imports", seq ["\x7b", commas (ref "import_specifier"), maybe ",", "\x7d"]),
    ("import_specifier",
      seq
        (d.typed [maybe (oneOf ["type", "typeof"])] ++
         [oneOf
            [role "name" (importedName d),
             seq
               [role "name"
                  (oneOf ([ref "_module_export_name"] ++ d.typed [nodeAs "identifier" "type"])),
                "as", role "alias" (importedName d)]]])),
    ("import_attribute", seq [oneOf ["with", "assert"], ref "object"])]

/-- Where types are written, an import may bind the name `type`. -/
def typedImportRules : List (String × Rule) :=
  [("_import_identifier", oneOf [name, nodeAs "identifier" "type"])]

end SourceAtlas.Grammar
