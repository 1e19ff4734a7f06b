/-
JSON values and their text. Numbers are kept as written. A text is quoted with the short escapes where there are any,
`\u` and four lower-case digits for other control characters, and everything else as it is.
-/

namespace Gleaner

inductive Json where
  | null
  | bool (b : Bool)
  | number (lexeme : String)
  | string (s : String)
  | array (items : List Json)
  | object (fields : List (String × Json))
  deriving Inhabited

namespace Json

def hexDigit (n : Nat) : Char :=
  if n < 10 then Char.ofNat (48 + n) else Char.ofNat (87 + n)

/-- the escaped form of a character inside quotes -/
def escapeChar (c : Char) : List Char :=
  match c with
  | '"' => ['\\', '"']
  | '\\' => ['\\', '\\']
  | '\n' => ['\\', 'n']
  | '\r' => ['\\', 'r']
  | '\t' => ['\\', 't']
  | '\x08' => ['\\', 'b']
  | '\x0c' => ['\\', 'f']
  | _ =>
    if c.toNat < 0x20 then ['\\', 'u', '0', '0', hexDigit (c.toNat / 16), hexDigit (c.toNat % 16)] else [c]

/-- a text in quotes -/
def quote (s : String) : String :=
  String.ofList ('"' :: s.toList.flatMap escapeChar ++ ['"'])

def open_ : String := "\x7b"
def close_ : String := "\x7d"

mutual
/-- the shortest text of a value -/
def render : Json → String
  | .null => "null"
  | .bool b => if b then "true" else "false"
  | .number lexeme => lexeme
  | .string s => quote s
  | .array items => "[" ++ renderItems items ++ "]"
  | .object fields => open_ ++ renderFields fields ++ close_

def renderItems : List Json → String
  | [] => ""
  | [item] => item.render
  | item :: rest => item.render ++ "," ++ renderItems rest

def renderFields : List (String × Json) → String
  | [] => ""
  | [(key, value)] => quote key ++ ":" ++ value.render
  | (key, value) :: rest => quote key ++ ":" ++ value.render ++ "," ++ renderFields rest
end

/-- the piece of characters that come in reverse, if there are any -/
def plainPiece (latest : List Char) : List String :=
  if latest.isEmpty then [] else [String.ofList latest.reverse]

/-- the pieces of characters inside quotes: every escape, and what stands between escapes; `latest` is the piece that
goes on -/
def innerPieces (latest : List Char) : List Char → List String
  | [] => plainPiece latest
  | c :: rest =>
    if escapeChar c = [c] then innerPieces (c :: latest) rest
    else plainPiece latest ++ String.ofList (escapeChar c) :: innerPieces [] rest

/-- the pieces of a text in quotes -/
def quotePieces (s : String) : List String := "\"" :: innerPieces [] s.toList ++ ["\""]

mutual
/-- the pieces in which the shortest text of a value is written -/
def pieces : Json → List String
  | .null => ["null"]
  | .bool b => [if b then "true" else "false"]
  | .number lexeme => [lexeme]
  | .string s => quotePieces s
  | .array items => "[" :: itemPieces items ++ ["]"]
  | .object fields => open_ :: fieldPieces fields ++ [close_]

def itemPieces : List Json → List String
  | [] => []
  | [item] => item.pieces
  | item :: rest => item.pieces ++ "," :: itemPieces rest

def fieldPieces : List (String × Json) → List String
  | [] => []
  | [(key, value)] => quotePieces key ++ ":" :: value.pieces
  | (key, value) :: rest => quotePieces key ++ ":" :: value.pieces ++ "," :: fieldPieces rest
end

def ofNat (n : Nat) : Json := .number (toString n)

def ofInt (n : Int) : Json := .number (toString n)

def ofStrings (texts : List String) : Json := .array (texts.map .string)

/-- the value of a field -/
def field? (name : String) : Json → Option Json
  | .object fields => (fields.find? (·.1 == name)).map (·.2)
  | _ => none

end Json

end Gleaner
