/-
# The rules of a grammar

A grammar gives each phrase a rule: a sequence, a choice, a repetition of tokens and other phrases.
Parts of a rule may be marked with the role that they play in the node of the phrase, or shown under
another kind. Where a text can be read in two ways, a rule says how firmly it holds its parts
together, to which side it leans, and how much weight the reading has.
-/

import SourceAtlas.Grammar.Dialect

namespace SourceAtlas.Grammar

/-- The classes of tokens that are not fixed texts. -/
inductive Lexeme where
  | identifier
  /-- A name with its mark `#`. -/
  | privateName
  | number
  | comment
  /-- The line at the start of a script that names its interpreter. -/
  | interpreterLine
  /-- A name with a hyphen, as markup has them. -/
  | hyphenatedName
  /-- A character of markup by its name or number. -/
  | characterReference
  /-- Text between double quotes. -/
  | doubleText
  /-- Text between single quotes. -/
  | singleText
  /-- Text between double quotes in markup. -/
  | doubleMarkupText
  /-- Text between single quotes in markup. -/
  | singleMarkupText
  /-- A backslash with what it stands before. -/
  | escape
  /-- The inside of a regular expression. -/
  | regexBody
  /-- The slash that closes a regular expression. -/
  | regexEnd
  | regexFlags
  /-- The words `static get` at the end of a row. -/
  | staticGetRow
  /-- A semicolon that is left out. -/
  | missingSemicolon
  /-- A semicolon that is left out after the signature of a function. -/
  | missingSignatureEnd
  /-- Text inside a template. -/
  | templateText
  /-- The question mark of a conditional expression. -/
  | questionMark
  /-- A row that is commented out as in markup. -/
  | markupComment
  /-- Text between markup tags. -/
  | markupText
deriving DecidableEq, Hashable, Repr

inductive Terminal where
  /-- A fixed text. -/
  | literal (text : String)
  /-- A fixed text that is a node of its own kind. -/
  | named (kind text : String)
  | lexeme (class_ : Lexeme)
  | endOfText
deriving DecidableEq, Hashable, Repr

/-- How firmly a rule holds its parts together. -/
inductive Level where
  | unsaid
  | number (value : Int)
  | name (text : String)
deriving DecidableEq, Hashable, Repr, Inhabited

/-- The side to which a rule leans when it could end here or go on. -/
inductive Side where
  | left
  | right
deriving DecidableEq, Hashable, Repr

/-- The kind under which a part is shown. -/
structure Shown where
  kind : String
  /-- Whether it is more than a bare token. -/
  named : Bool
deriving DecidableEq, Hashable, Repr

inductive Rule where
  | nothing
  | terminal (t : Terminal)
  /-- The phrase of this name. -/
  | ref (name : String)
  | seq (parts : List Rule)
  | oneOf (choices : List Rule)
  /-- Once or more often. -/
  | repeated (part : Rule)
  /-- A part with its role in the node. -/
  | role (name : String) (part : Rule)
  /-- A part that is shown under another kind. -/
  | shownAs (shown : Shown) (part : Rule)
  | held (level : Level) (side : Option Side) (part : Rule)
  /-- A reading that is liked more or less than others. -/
  | weighed (weight : Int) (part : Rule)

namespace Rule

def sign (text : String) : Rule := .terminal (.literal text)

instance : Coe String Rule := ⟨sign⟩

def lexeme (class_ : Lexeme) : Rule := .terminal (.lexeme class_)

/-- A word that is a node of its own. -/
def word (text : String) : Rule := .terminal (.named text text)

/-- A part that may be missing. -/
def maybe (part : Rule) : Rule := .oneOf [part, .nothing]

/-- Any number of times. -/
def many (part : Rule) : Rule := maybe (.repeated part)

/-- One part or more, with a separator between them. -/
def separated (separator part : Rule) : Rule := .seq [part, many (.seq [separator, part])]

def commas1 (part : Rule) : Rule := separated "," part

def commas (part : Rule) : Rule := maybe (commas1 part)

/-- Parts in a sequence that is held together at a level. -/
def firm (level : String) (parts : List Rule) : Rule := .held (.name level) none (.seq parts)

/-- Parts in a sequence that is held together at a level and leans to the left. -/
def firmLeft (level : String) (parts : List Rule) : Rule :=
  .held (.name level) (some .left) (.seq parts)

/-- Parts in a sequence that is held together at a level and leans to the right. -/
def firmRight (level : String) (parts : List Rule) : Rule :=
  .held (.name level) (some .right) (.seq parts)

def leanLeft (part : Rule) : Rule := .held (.number 0) (some .left) part

def leanRight (part : Rule) : Rule := .held (.number 0) (some .right) part

/-- The phrase of a name, shown as a node of another kind. -/
def refAs (name kind : String) : Rule := .shownAs ⟨kind, true⟩ (.ref name)

def nodeAs (kind : String) (part : Rule) : Rule := .shownAs ⟨kind, true⟩ part

/-- A part that is shown as a bare token. -/
def tokenAs (text : String) (part : Rule) : Rule := .shownAs ⟨text, false⟩ part

/-- The name of something. -/
def name : Rule := lexeme .identifier

def nameAs (kind : String) : Rule := nodeAs kind name

end Rule

/-- Parts that only a language with types has. -/
def Dialect.typed {α : Type} (d : Dialect) (parts : List α) : List α :=
  if d.hasTypes then parts else []

/-- Parts that only a language without types has. -/
def Dialect.untyped {α : Type} (d : Dialect) (parts : List α) : List α :=
  if d.hasTypes then [] else parts

/-- What an order of firmness ranks: a level, or the phrase of a name. -/
inductive Rank where
  | level (text : String)
  | phrase (name : String)
deriving DecidableEq, Repr

/-- A language: the rules of its phrases, the first of which is a whole text, and how readings are
chosen. -/
structure Language where
  rules : List (String × Rule)
  /-- The phrases that are replaced by their rules wherever they are named. -/
  inlined : List String
  /-- The phrases that make no node although their names do not start with an underscore. -/
  unseen : List String
  /-- Ranks in falling order of firmness. -/
  orders : List (List Rank)
  /-- The tokens that may stand anywhere. -/
  extras : List Terminal

end SourceAtlas.Grammar
