import Scriptlet.Operator
import Scriptlet.Text.Quoted

/-!
# Scriptlet — tokens

A token is a classified piece of a source line together with the line's number. What the parser
needs of the piece is in its `TokenKind`: a name, a number, an unescaped text, an operator, a
keyword or a separator. The end of the input is a token too, and it repeats for ever.
-/

namespace Scriptlet

/-- The words with a meaning of their own. -/
inductive Keyword where
  | whileWord | ifWord | doWord | elseWord | endWord | returnWord | defWord
deriving DecidableEq, Repr

namespace Keyword

/-- How the keyword is written. -/
def text : Keyword → String
  | whileWord => "while"
  | ifWord => "if"
  | doWord => "do"
  | elseWord => "else"
  | endWord => "end"
  | returnWord => "return"
  | defWord => "def"

/-- All keywords. -/
def all : List Keyword :=
  [whileWord, ifWord, doWord, elseWord, endWord, returnWord, defWord]

/-- The keyword written with the given word. -/
def ofText? (text : String) : Option Keyword :=
  all.find? (·.text == text)

/-- Reading a keyword's text gives the keyword back. -/
theorem ofText?_text (keyword : Keyword) : ofText? keyword.text = some keyword := by
  cases keyword <;> decide +kernel

end Keyword

/-- The signs that separate and enclose. -/
inductive Separator where
  | semicolon | openParen | closeParen | comma
deriving DecidableEq, Repr

/-- How the separator is written. -/
def Separator.text : Separator → String
  | semicolon => ";"
  | openParen => "("
  | closeParen => ")"
  | comma => ","

/-- What a piece of source text is. -/
inductive TokenKind where
  | identifier (name : String)
  | number (value : Int64)
  | text (content : String)
  | operator (op : Operator)
  | assign
  | keyword (word : Keyword)
  | separator (sign : Separator)
  | eof
deriving DecidableEq, Repr

namespace TokenKind

/-- The canonical text of a token: a number in decimal, a string literal's content, and the
written form of everything else. -/
def lexeme : TokenKind → String
  | identifier name => name
  | number value => toString value.toInt
  | text content => content
  | operator op => op.symbol
  | assign => "="
  | keyword word => word.text
  | separator sign => sign.text
  | eof => ""

/-- The integer of a number token, and zero for every other token. -/
def value : TokenKind → Int64
  | number value => value
  | _ => 0

/-- The token with its class as a short tag, string literals quoted. -/
def render : TokenKind → String
  | identifier name => "<id:" ++ name ++ ">"
  | number value => "<num:" ++ toString value.toInt ++ ">"
  | text content => "<str:" ++ Text.quote content ++ ">"
  | operator op => "<pun:" ++ op.symbol ++ ">"
  | assign => "<pun:=>"
  | keyword word => "<key:" ++ word.text ++ ">"
  | separator sign => "<sep:" ++ sign.text ++ ">"
  | eof => "<eof>"

end TokenKind

/-- A token and the number of its line, counted from one. -/
structure Token where
  kind : TokenKind
  line : Nat
deriving DecidableEq, Repr

namespace Token

/-- Whether the token marks the end of the input. -/
def isEof (token : Token) : Bool :=
  token.kind == .eof

/-- The token's place in words, as messages give it. -/
def location (token : Token) : String :=
  match token.kind with
  | .eof => "end of input"
  | kind => "`" ++ kind.lexeme ++ "` at line " ++ toString token.line

end Token

end Scriptlet
