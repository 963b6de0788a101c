import ShardFleet.Error
import ShardFleet.Text.Quoted
import ShardFleet.Value

/-!
Statements with bound parameters, placeholders and quoted identifiers.

Values never enter statement text: the text holds placeholders only, and the values travel
beside it. Names are checked, not escaped: one or two plain words joined by a point are quoted,
any other name is refused.
-/

namespace ShardFleet

/-- How placeholders are written. -/
inductive PlaceholderStyle where
  | positional
  | numbered
  | named
  deriving DecidableEq, Repr, Inhabited

namespace PlaceholderStyle

/-- The placeholder of the parameter at `index`, counted from zero. -/
def placeholder (style : PlaceholderStyle) (index : Nat) : String :=
  match style with
  | .positional => "?"
  | .numbered => "$" ++ toString (index + 1)
  | .named => "@p" ++ toString index

/-- The placeholders of `count` parameters from `start` on. -/
def placeholders (style : PlaceholderStyle) (start count : Nat) : String :=
  ", ".intercalate ((List.range' start count).map style.placeholder)

end PlaceholderStyle

/-- Statement text and the values bound to its placeholders, in their order. -/
structure Statement where
  sql : String
  params : List Value
  deriving DecidableEq, Repr, Inhabited

/-- A statement that binds nothing. -/
def Statement.plain (sql : String) : Statement := ⟨sql, []⟩

namespace Identifier

/-- Whether `c` may stand in a name. -/
def isNameChar (c : Char) : Bool := c.isAlphanum || c = '_'

/-- A plain word: name characters only, at least one, and no digit first. -/
def isWord (part : List Char) : Bool :=
  match part with
  | [] => false
  | first :: _ => !first.isDigit && part.all isNameChar

/-- The parts of a name between its points. -/
def parts : List Char → List (List Char)
  | [] => [[]]
  | c :: rest =>
      if c = '.' then [] :: parts rest
      else
        match parts rest with
        | [] => [[c]]
        | first :: others => (c :: first) :: others

def quoteWord (word : List Char) : List Char := ['"'] ++ word ++ ['"']

/-- A table or column name in double quotes, with its schema if it has one. -/
def quote (name : String) : Except Error String :=
  let words := parts name.toList
  if words.length ≤ 2 ∧ words.all isWord then
    .ok (String.ofList (['.'].intercalate (words.map quoteWord)))
  else .error (.statement ("invalid identifier: " ++ Text.quoted name))

end Identifier

end ShardFleet
