import OviproApi.Ecma.Value

/-! `JSON.stringify` and `JSON.parse`. A text is handled as its list of
characters; strings are sequences of Unicode scalar values, so an unpaired
surrogate escape reads as the replacement character. -/

namespace Ecma.Json

def hexDigit (n : Nat) : Char := (Nat.toDigits 16 n).headD '0'

def quoteChar (c : Char) : List Char :=
  if c = '"' then ['\\', '"']
  else if c = '\\' then ['\\', '\\']
  else if c.toNat = 8 then ['\\', 'b']
  else if c.toNat = 9 then ['\\', 't']
  else if c.toNat = 10 then ['\\', 'n']
  else if c.toNat = 12 then ['\\', 'f']
  else if c.toNat = 13 then ['\\', 'r']
  else if c.toNat < 32 then
    ['\\', 'u', '0', '0', hexDigit (c.toNat / 16), hexDigit (c.toNat % 16)]
  else [c]

def quote (s : String) : List Char := '"' :: s.toList.flatMap quoteChar ++ ['"']

def numberText : Number → List Char
  | .infinite _ => ['n', 'u', 'l', 'l']
  | x => x.text

mutual

/-- The text of a value; `none` where `JSON.stringify` returns `undefined`. -/
def serialize : Value → Option (List Char)
  | .undefined => none
  | .null => some ['n', 'u', 'l', 'l']
  | .bool true => some ['t', 'r', 'u', 'e']
  | .bool false => some ['f', 'a', 'l', 's', 'e']
  | .num x => some (numberText x)
  | .str s => some (quote s)
  | .arr xs => some ('[' :: [','].intercalate (elementTexts xs) ++ [']'])
  | .obj ms => some ('{' :: [','].intercalate (memberTexts ms) ++ ['}'])

def elementTexts : List Value → List (List Char)
  | [] => []
  | x :: xs => (serialize x).getD ['n', 'u', 'l', 'l'] :: elementTexts xs

def memberTexts : List (String × Value) → List (List Char)
  | [] => []
  | (key, v) :: ms =>
    match serialize v with
    | none => memberTexts ms
    | some text => (quote key ++ ':' :: text) :: memberTexts ms

end

def stringify (v : Value) : Option String := (serialize v).map String.ofList

/-- A replacer function; since it makes no value larger, the descent into what
it returns ends. -/
structure Replacer where
  replace : String → Value → Value
  sizeOf_replace : ∀ key v, sizeOf (replace key v) ≤ sizeOf v

mutual

/-- The text of the value that is held under a key, after the replacer was
called with both. -/
def serializeWith (r : Replacer) (key : String) (v : Value) : Option (List Char) :=
  match _h : r.replace key v with
  | .arr xs => some ('[' :: [','].intercalate (elementTextsWith r 0 xs) ++ [']'])
  | .obj ms => some ('{' :: [','].intercalate (memberTextsWith r ms) ++ ['}'])
  | w => serialize w
termination_by sizeOf v
decreasing_by
  all_goals
    have hle := r.sizeOf_replace key v
    rw [_h] at hle
    simp only [Value.arr.sizeOf_spec, Value.obj.sizeOf_spec] at hle
    omega

def elementTextsWith (r : Replacer) (index : Nat) : List Value → List (List Char)
  | [] => []
  | x :: xs =>
    (serializeWith r (toString index) x).getD ['n', 'u', 'l', 'l'] ::
      elementTextsWith r (index + 1) xs
termination_by xs => sizeOf xs

def memberTextsWith (r : Replacer) : List (String × Value) → List (List Char)
  | [] => []
  | (key, v) :: ms =>
    let texts := memberTextsWith r ms
    match serializeWith r key v with
    | none => texts
    | some text => (quote key ++ ':' :: text) :: texts
termination_by ms => sizeOf ms

end

/-- `JSON.stringify` with a replacer. -/
def stringifyWith (r : Replacer) (v : Value) : Option String :=
  (serializeWith r "" v).map String.ofList

def isWhitespace (c : Char) : Bool :=
  c.toNat = 9 || c.toNat = 10 || c.toNat = 13 || c.toNat = 32

def skipWhitespace (cs : List Char) : List Char := cs.dropWhile isWhitespace

def hexValue (c : Char) : Option Nat :=
  if c.isDigit then some (c.toNat - 48)
  else if 97 ≤ c.toNat ∧ c.toNat ≤ 102 then some (c.toNat - 87)
  else if 65 ≤ c.toNat ∧ c.toNat ≤ 70 then some (c.toNat - 55)
  else none

def hexUnit (a b c d : Char) : Option Nat := do
  return (((← hexValue a) * 16 + (← hexValue b)) * 16 + (← hexValue c)) * 16 + (← hexValue d)

def escapedUnit : Char → Option Nat
  | '"' => some 34
  | '\\' => some 92
  | '/' => some 47
  | 'b' => some 8
  | 'f' => some 12
  | 'n' => some 10
  | 'r' => some 13
  | 't' => some 9
  | _ => none

def stringUnits : List Char → Option (List Nat × List Char)
  | [] => none
  | '"' :: rest => some ([], rest)
  | '\\' :: 'u' :: a :: b :: c :: d :: rest => do
    let unit ← hexUnit a b c d
    let (units, rest) ← stringUnits rest
    return (unit :: units, rest)
  | '\\' :: e :: rest => do
    let unit ← escapedUnit e
    let (units, rest) ← stringUnits rest
    return (unit :: units, rest)
  | c :: rest =>
    if c.toNat < 32 || c = '\\' then none
    else do
      let (units, rest) ← stringUnits rest
      return (c.toNat :: units, rest)

def combineUnits : List Nat → List Char
  | [] => []
  | [u] => [if 0xD800 ≤ u ∧ u ≤ 0xDFFF then Char.ofNat 0xFFFD else Char.ofNat u]
  | u :: w :: units =>
    if 0xD800 ≤ u ∧ u < 0xDC00 ∧ 0xDC00 ≤ w ∧ w ≤ 0xDFFF then
      Char.ofNat (0x10000 + (u - 0xD800) * 0x400 + (w - 0xDC00)) :: combineUnits units
    else
      (if 0xD800 ≤ u ∧ u ≤ 0xDFFF then Char.ofNat 0xFFFD else Char.ofNat u) ::
        combineUnits (w :: units)

def parseString (cs : List Char) : Option (String × List Char) :=
  (stringUnits cs).map fun (units, rest) => (String.ofList (combineUnits units), rest)

def digitsValue (ds : List Char) : Nat := ds.foldl (fun n c => n * 10 + (c.toNat - 48)) 0

def parseIntegerPart : List Char → Option (List Char × List Char)
  | '0' :: rest => some (['0'], rest)
  | cs =>
    match cs.span Char.isDigit with
    | ([], _) => none
    | (ds, rest) => some (ds, rest)

def parseFraction : List Char → Option (List Char × List Char)
  | '.' :: rest =>
    match rest.span Char.isDigit with
    | ([], _) => none
    | (ds, rest) => some (ds, rest)
  | cs => some ([], cs)

def parseExponentDigits (negative : Bool) (cs : List Char) : Option (Int × List Char) :=
  match cs.span Char.isDigit with
  | ([], _) => none
  | (ds, rest) => some (if negative then -(digitsValue ds : Int) else digitsValue ds, rest)

def parseExponent : List Char → Option (Int × List Char)
  | 'e' :: '-' :: rest | 'E' :: '-' :: rest => parseExponentDigits true rest
  | 'e' :: '+' :: rest | 'E' :: '+' :: rest => parseExponentDigits false rest
  | 'e' :: rest | 'E' :: rest => parseExponentDigits false rest
  | cs => some (0, cs)

def parseUnsigned (negative : Bool) (cs : List Char) : Option (Number × List Char) := do
  let (integer, cs) ← parseIntegerPart cs
  let (fraction, cs) ← parseFraction cs
  let (exponent, cs) ← parseExponent cs
  return (Number.ofDecimal negative (digitsValue (integer ++ fraction)) (exponent - fraction.length), cs)

def parseNumber : List Char → Option (Number × List Char)
  | '-' :: cs => parseUnsigned true cs
  | cs => parseUnsigned false cs

def arrayIndex (key : String) : Option Nat :=
  let n := digitsValue key.toList
  if key.toList = Nat.toDigits 10 n ∧ n < 2 ^ 32 - 1 then some n else none

/-- Define a member: array indices come first in ascending order, the other
keys in the order of their definition, and a repeated key takes the new value. -/
def defineMember (key : String) (v : Value) : List (String × Value) → List (String × Value)
  | [] => [(key, v)]
  | (k, w) :: ms =>
    if k = key then (key, v) :: ms
    else
      match arrayIndex key, arrayIndex k with
      | some i, some j => if i < j then (key, v) :: (k, w) :: ms else (k, w) :: defineMember key v ms
      | some _, none => (key, v) :: (k, w) :: ms
      | none, _ => (k, w) :: defineMember key v ms

mutual

/-- One value from the front of a text; `fuel` bounds the depth of the descent. -/
def parseValue : Nat → List Char → Option (Value × List Char)
  | 0, _ => none
  | fuel + 1, cs =>
    match skipWhitespace cs with
    | 'n' :: 'u' :: 'l' :: 'l' :: rest => some (.null, rest)
    | 't' :: 'r' :: 'u' :: 'e' :: rest => some (.bool true, rest)
    | 'f' :: 'a' :: 'l' :: 's' :: 'e' :: rest => some (.bool false, rest)
    | '"' :: rest => (parseString rest).map fun (s, rest) => (.str s, rest)
    | '[' :: rest =>
      match skipWhitespace rest with
      | ']' :: rest => some (.arr [], rest)
      | rest => (parseElements fuel rest).map fun (xs, rest) => (.arr xs, rest)
    | '{' :: rest =>
      match skipWhitespace rest with
      | '}' :: rest => some (.obj [], rest)
      | rest => (parseMembers fuel [] rest).map fun (ms, rest) => (.obj ms, rest)
    | cs => (parseNumber cs).map fun (x, rest) => (.num x, rest)

def parseElements : Nat → List Char → Option (List Value × List Char)
  | 0, _ => none
  | fuel + 1, cs => do
    let (x, cs) ← parseValue fuel cs
    match skipWhitespace cs with
    | ',' :: rest =>
      let (xs, rest) ← parseElements fuel rest
      return (x :: xs, rest)
    | ']' :: rest => return ([x], rest)
    | _ => none

def parseMembers :
    Nat → List (String × Value) → List Char → Option (List (String × Value) × List Char)
  | 0, _, _ => none
  | fuel + 1, members, cs =>
    match skipWhitespace cs with
    | '"' :: rest => do
      let (key, cs) ← parseString rest
      match skipWhitespace cs with
      | ':' :: rest =>
        let (v, cs) ← parseValue fuel rest
        let members := defineMember key v members
        match skipWhitespace cs with
        | ',' :: rest => parseMembers fuel members rest
        | '}' :: rest => return (members, rest)
        | _ => none
      | _ => none
    | _ => none

end

/-- `JSON.parse`. At least every other step down consumes a character, so twice
the length of the text is fuel enough. -/
def parse (text : String) : Except Error Value :=
  match parseValue (2 * text.toList.length + 1) text.toList with
  | some (v, rest) =>
    if skipWhitespace rest = [] then pure v
    else throw (.syntaxError "Unexpected non-whitespace character after JSON")
  | none => throw (.syntaxError "Unexpected token in JSON")

end Ecma.Json
