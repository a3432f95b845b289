import CreatorMigration.Span

/-! # Tokens

A unit as a list of tokens with their bytes. What stands between two tokens is blank or a comment;
comments are kept with the token that they precede.
-/

namespace CreatorMigration

inductive TokenKind where
  /-- A name or a keyword; which of them is decided where it stands. -/
  | word
  | privateName
  | number
  | string
  | regex
  | templateOpen
  | templateText
  | templateEscape
  | templateClose
  | holeOpen
  | holeClose
  | punctuation
  | hashBang
  /-- The end of the unit, which carries the comments behind the last token. -/
  | finish
deriving DecidableEq, Inhabited

structure Comment where
  span : Span
  /-- Whether a line feed stands between the comment and what precedes it. -/
  lineBreak : Bool
deriving Inhabited

structure Token where
  kind : TokenKind
  text : String
  span : Span
  /-- Whether a line feed stands in front of the token, outside its comments. -/
  lineBreak : Bool
  comments : List Comment
deriving Inhabited

namespace Token

def isWord (token : Token) (text : String) : Bool :=
  token.kind == TokenKind.word && token.text == text

def isPunctuation (token : Token) (text : String) : Bool :=
  token.kind == TokenKind.punctuation && token.text == text

end Token

end CreatorMigration
