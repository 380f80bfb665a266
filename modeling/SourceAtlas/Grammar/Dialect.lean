/-
# The languages that are read

There are three of them: one with types, one with types and markup, and one with markup only. The
extension of a file tells its language.
-/

import SourceAtlas.Disk.Path

namespace SourceAtlas.Grammar

/-- The languages that are read. -/
inductive Dialect where
  /-- With types, without markup. -/
  | typescript
  /-- With types and markup. -/
  | tsx
  /-- With markup, without types. -/
  | javascript
deriving DecidableEq, Repr

def Dialect.hasTypes : Dialect → Bool
  | .javascript => false
  | _ => true

def Dialect.hasMarkup : Dialect → Bool
  | .typescript => false
  | _ => true

def Dialect.name : Dialect → String
  | .typescript => "typescript"
  | .tsx => "tsx"
  | .javascript => "javascript"

def Dialect.ofName? (name : String) : Option Dialect :=
  [Dialect.typescript, Dialect.tsx, Dialect.javascript].find? fun d => d.name == name

def dialectExtensions : List (String × Dialect) :=
  [(".ts", .typescript), (".mts", .typescript), (".cts", .typescript), (".tsx", .tsx),
    (".js", .javascript), (".jsx", .javascript), (".mjs", .javascript), (".cjs", .javascript)]

/-- The language that the extension of a path names, in whatever case it is written. -/
def knownDialect? (path : String) : Option Dialect :=
  dialectExtensions.lookup (Path.extension path).toLower

def isSourcePath (path : String) : Bool := (knownDialect? path).isSome

/-- The language of a file. Anything unknown is read with types and markup. -/
def dialectOfPath (path : String) : Dialect := (knownDialect? path).getD .tsx

end SourceAtlas.Grammar
