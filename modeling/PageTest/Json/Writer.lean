import PageTest.Json.Basic

/-! JSON text: on one line without blanks, or one value a line with two blanks for each level. -/

namespace PageTest.Json

def hexDigit (n : Nat) : Char := (Nat.toDigits 16 n).headD '0'

/-- A character inside a quoted text. Only quotes, backslashes and control characters are escaped. -/
def escape (c : Char) : List Char :=
  if c = '"' then ['\\', '"']
  else if c = '\\' then ['\\', '\\']
  else if c = '\x08' then ['\\', 'b']
  else if c = '\x0c' then ['\\', 'f']
  else if c = '\n' then ['\\', 'n']
  else if c = '\r' then ['\\', 'r']
  else if c = '\t' then ['\\', 't']
  else if c.toNat < 32 then ['\\', 'u', '0', '0', hexDigit (c.toNat / 16), hexDigit (c.toNat % 16)]
  else [c]

def quote (s : String) : List Char := '"' :: (s.toList.flatMap escape ++ ['"'])

mutual

def compact : Json → List Char
  | .null => "null".toList
  | .bool b => (if b then "true" else "false").toList
  | .number n => n.text.toList
  | .text s => quote s
  | .unpaired => quote ""
  | .list items => '[' :: (compactItems items ++ [']'])
  | .object fields => '{' :: (compactFields fields ++ ['}'])

def compactItems : List Json → List Char
  | [] => []
  | [a] => compact a
  | a :: b :: rest => compact a ++ ',' :: compactItems (b :: rest)

def compactFields : List (String × Json) → List Char
  | [] => []
  | [(k, a)] => quote k ++ ':' :: compact a
  | (k, a) :: f :: rest => quote k ++ ':' :: (compact a ++ ',' :: compactFields (f :: rest))

end

/-- A new line at the given level. -/
def newline (level : Nat) : List Char := '\n' :: List.replicate (2 * level) ' '

mutual

def prettyAt (level : Nat) : Json → List Char
  | .list (a :: rest) =>
    '[' :: (prettyItems (level + 1) (a :: rest) ++ (newline level ++ [']']))
  | .object (f :: rest) =>
    '{' :: (prettyFields (level + 1) (f :: rest) ++ (newline level ++ ['}']))
  | .list [] => ['[', ']']
  | .object [] => ['{', '}']
  | .null => "null".toList
  | .bool b => (if b then "true" else "false").toList
  | .number n => n.text.toList
  | .text s => quote s
  | .unpaired => quote ""

def prettyItems (level : Nat) : List Json → List Char
  | [] => []
  | [a] => newline level ++ prettyAt level a
  | a :: b :: rest => newline level ++ (prettyAt level a ++ ',' :: prettyItems level (b :: rest))

def prettyFields (level : Nat) : List (String × Json) → List Char
  | [] => []
  | [(k, a)] => newline level ++ (quote k ++ ':' :: ' ' :: prettyAt level a)
  | (k, a) :: f :: rest =>
    newline level ++ (quote k ++ ':' :: ' ' :: (prettyAt level a ++ ',' :: prettyFields level (f :: rest)))

end

/-- The text without blanks. -/
def render (j : Json) : String := String.ofList (compact j)

/-- The text with a line for each value. -/
def pretty (j : Json) : String := String.ofList (prettyAt 0 j)

end PageTest.Json
