import Crosstab.Double.Layout

namespace Crosstab

inductive Json
  | null
  | bool (value : Bool)
  | int (value : Int)
  | real (value : Double)
  | string (value : String)
  | array (items : List Json)
  | object (fields : List (String × Json))

namespace Json

/-- One character of a string: quotes, backslashes and control characters are escaped. -/
def escapeChar (c : Char) : List Char :=
  if c = '"' then ['\\', '"']
  else if c = '\\' then ['\\', '\\']
  else if c = '\n' then ['\\', 'n']
  else if c = '\r' then ['\\', 'r']
  else if c = '\t' then ['\\', 't']
  else if c = '\x08' then ['\\', 'b']
  else if c = '\x0c' then ['\\', 'f']
  else if c.toNat < 0x20 then
    ['\\', 'u', '0', '0', Nat.digitChar (c.toNat / 16), Nat.digitChar (c.toNat % 16)]
  else [c]

/-- A string between quotes. -/
def stringChars (s : String) : List Char := '"' :: (s.toList.flatMap escapeChar ++ ['"'])

/-- A real, or `null` where it has no digits. -/
def realChars (v : Double) : List Char :=
  match v.jsonText? with
  | some text => text.toList
  | none => ['n', 'u', 'l', 'l']

mutual

def chars : Json → List Char
  | null => ['n', 'u', 'l', 'l']
  | bool true => ['t', 'r', 'u', 'e']
  | bool false => ['f', 'a', 'l', 's', 'e']
  | int i => (toString i).toList
  | real v => realChars v
  | string s => stringChars s
  | array [] => ['[', ']']
  | array (item :: items) => '[' :: (chars item ++ itemsChars items)
  | object [] => ['{', '}']
  | object ((name, value) :: fields) =>
    '{' :: (stringChars name ++ ':' :: (chars value ++ fieldsChars fields))

/-- The items of an array after the first, and the end of the array. -/
def itemsChars : List Json → List Char
  | [] => [']']
  | item :: items => ',' :: (chars item ++ itemsChars items)

/-- The fields of an object after the first, and the end of the object. -/
def fieldsChars : List (String × Json) → List Char
  | [] => ['}']
  | (name, value) :: fields =>
    ',' :: (stringChars name ++ ':' :: (chars value ++ fieldsChars fields))

end

def render (value : Json) : String := String.ofList value.chars

def strings (values : List String) : Json := array (values.map string)

/-- A value that may be missing. -/
def orNull {α : Type} (encode : α → Json) : Option α → Json
  | none => null
  | some a => encode a

end Json

end Crosstab
