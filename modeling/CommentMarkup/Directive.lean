/-
# Directives

A comment whose content begins with `@` or `$` is a directive.  Its content is one of

* `@include a, b`, `@import a`, `@import-base64 a`: splice other files here;
* `@compile ...`: an old form, recognised so that it can be refused;
* `@name value`, `$name = value`, `@name: value`: define a variable;
* `@name`, `$name`, `@name?`: refer to a variable.

Keywords are recognised by how the content begins, so `@includes x` is an include as well.
-/
import CommentMarkup.Text.Blank
import CommentMarkup.Block

namespace CommentMarkup

/-- What a directive comment asks for. -/
inductive Directive where
  /-- Give a variable a value, which is never empty. -/
  | definition (name value : Text)
  /-- Put the value of a variable here; an optional one may be undefined. -/
  | reference (name : Text) (optional : Bool)
  /-- Put other files here, as text or as the base64 form of their bytes. -/
  | inclusion (specs : List Text) (base64 : Bool)
  /-- The old compile directive. -/
  | compilation
deriving DecidableEq, Repr

namespace Directive

/-- The beginnings of an include directive. -/
def inclusionKeywords : List Text :=
  [['@', 'i', 'n', 'c', 'l', 'u', 'd', 'e'], ['@', 'i', 'm', 'p', 'o', 'r', 't']]

/-- The beginning of a compile directive. -/
def compilationKeyword : Text := ['@', 'c', 'o', 'm', 'p', 'i', 'l', 'e']

/-- What marks an include directive as one for the base64 form. -/
def base64Mark : Text := ['b', 'a', 's', 'e', '6', '4']

/-- The characters that begin a directive. -/
def sigils : List Char := ['@', '$']

/-- The characters that may stand between a name and its value. -/
def isOperator (c : Char) : Bool := c = '=' || c = ':'

/-- The quotation marks, which are dropped from the list of an include directive. -/
def isQuote (c : Char) : Bool := c = '\'' || c = '"'

/-- The content of a comment: what stands between its delimiters, without the blanks around
it.  A text too short to hold both delimiters has no content. -/
def commentContent (data : Text) : Text :=
  Text.trim ((data.take (data.length - commentClosing.length)).drop commentOpening.length)

/-- Whether a character ends the name of a variable. -/
def endsName (c : Char) : Bool := isBlank c || isOperator c

/-- A text without one leading operator and the blanks around it. -/
def dropOperator : Text → Text
  | [] => []
  | c :: r => if isOperator c then Text.trim r else c :: r

/-- The name, without its sigil, and the value of a variable directive.  The name ends at the
first blank or operator; one operator is dropped from what follows.  The value of a reference
is empty. -/
def nameAndValue (content : Text) : Text × Text :=
  let name := content.takeWhile fun c => !endsName c
  let rest := content.dropWhile fun c => !endsName c
  (name.drop 1, dropOperator (Text.trim rest))

/-- The files an include directive lists: separated by commas, with every quotation mark and
the blanks around each removed. -/
def inclusionSpecs (content : Text) : List Text :=
  let list := Text.afterFirstWord content
  if list = [] then []
  else (list.splitOn ',').map fun spec => Text.trim (spec.filter fun c => !isQuote c)

/-- Reads the content of a directive comment. -/
def ofContent (content : Text) : Directive :=
  if inclusionKeywords.any fun keyword => keyword.isPrefixOf content then
    .inclusion (inclusionSpecs content) (Text.occursIn base64Mark (Text.firstWord content))
  else if compilationKeyword.isPrefixOf content then .compilation
  else
    let (name, value) := nameAndValue content
    if value ≠ [] then .definition name value
    else if name.getLast? = some '?' then .reference name.dropLast true
    else .reference name false

/-- What kind of directive it is, for the log. -/
def kindName : Directive → Text
  | .definition .. => "definition".toList
  | .reference .. => "reference".toList
  | .inclusion .. => "include".toList
  | .compilation => "compile".toList

end Directive

namespace Block

/-- Whether a block is a directive: a comment whose content begins with a sigil. -/
def isSpecial (b : Block) : Bool :=
  b.isComment && (Directive.commentContent b.data).head?.any Directive.sigils.contains

/-- The directive that a block holds, if its content is read as one. -/
def directive (b : Block) : Directive := .ofContent (Directive.commentContent b.data)

/-- Whether a block is a directive that defines a variable. -/
def isDefinition (b : Block) : Bool :=
  b.isSpecial && match b.directive with
    | .definition .. => true
    | _ => false

end Block

end CommentMarkup
