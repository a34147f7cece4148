/-!
JSON texts read into values. A number keeps its decimal digits, and a string may be one that
no text can hold, because an escape in it names one half of a surrogate pair.
-/

namespace FrameSync

/-- A decimal numeral: `digits * 10 ^ power`, with a sign, and whether it was written without
point and exponent. -/
structure Numeral where
  negative : Bool
  digits : Nat
  power : Int
  whole : Bool
deriving DecidableEq, Repr

/-- The characters of a string; none if an escape names half a pair. -/
abbrev JsonText := Option String

inductive Json where
  | null
  | bool (b : Bool)
  | number (n : Numeral)
  | string (s : JsonText)
  | array (items : List Json)
  | object (members : List (JsonText × Json))
deriving Inhabited

namespace Json

def isBlank (c : Char) : Bool :=
  c = ' ' || c = '\n' || c = '\t' || c = '\r'

def skipBlanks (cs : List Char) : List Char :=
  cs.dropWhile isBlank

def digitsValue (cs : List Char) : Nat :=
  cs.foldl (fun n c => 10 * n + (c.toNat - '0'.toNat)) 0

def digits? (cs : List Char) : Option (List Char × List Char) :=
  match cs.takeWhile Char.isDigit with
  | [] => none
  | ds => some (ds, cs.dropWhile Char.isDigit)

/-- Takes the whole part of a numeral. A zero in front stands alone. -/
def whole? : List Char → Option (List Char × List Char)
  | '0' :: rest => some (['0'], rest)
  | cs => digits? cs

def places? : List Char → Option (List Char × List Char)
  | '.' :: rest => digits? rest
  | cs => some ([], cs)

def exponent? : List Char → Option (Option Int × List Char)
  | e :: cs =>
    if e = 'e' ∨ e = 'E' then
      match cs with
      | '-' :: cs => (digits? cs).map fun (ds, rest) => (some (-(digitsValue ds : Int)), rest)
      | '+' :: cs => (digits? cs).map fun (ds, rest) => (some (digitsValue ds : Int), rest)
      | cs => (digits? cs).map fun (ds, rest) => (some (digitsValue ds : Int), rest)
    else some (none, e :: cs)
  | [] => some (none, [])

def unsigned? (negative : Bool) (cs : List Char) : Option (Numeral × List Char) := do
  let (ds, cs) ← whole? cs
  let (ps, cs) ← places? cs
  let (e, cs) ← exponent? cs
  return (⟨negative, digitsValue (ds ++ ps), e.getD 0 - ps.length, ps.isEmpty && e.isNone⟩, cs)

def numeral? : List Char → Option (Numeral × List Char)
  | '-' :: cs => unsigned? true cs
  | cs => unsigned? false cs

def hexDigit? (c : Char) : Option Nat :=
  if c.isDigit then some (c.toNat - '0'.toNat)
  else if 'a' ≤ c ∧ c ≤ 'f' then some (c.toNat - 'a'.toNat + 10)
  else if 'A' ≤ c ∧ c ≤ 'F' then some (c.toNat - 'A'.toNat + 10)
  else none

def escape? : Char → Option Nat
  | '"' => some 0x22
  | '\\' => some 0x5c
  | '/' => some 0x2f
  | 'b' => some 0x08
  | 'f' => some 0x0c
  | 'n' => some 0x0a
  | 'r' => some 0x0d
  | 't' => some 0x09
  | _ => none

/-- Takes a string after its opening quote, as code points and halves of pairs. Control
characters must be escaped. -/
def quoted? : List Char → Option (List Nat × List Char)
  | [] => none
  | '"' :: rest => some ([], rest)
  | '\\' :: 'u' :: a :: b :: c :: d :: rest => do
    let unit := (← hexDigit? a) * 4096 + (← hexDigit? b) * 256 + (← hexDigit? c) * 16
      + (← hexDigit? d)
    let (units, rest) ← quoted? rest
    return (unit :: units, rest)
  | '\\' :: c :: rest => do
    let unit ← escape? c
    let (units, rest) ← quoted? rest
    return (unit :: units, rest)
  | c :: rest => do
    if c.toNat < 0x20 then none
    let (units, rest) ← quoted? rest
    return (c.toNat :: units, rest)

/-- Joins the halves of pairs; a half that stands alone has no character. -/
def joinHalves? : List Nat → Option (List Char)
  | [] => some []
  | high :: low :: rest =>
    if 0xd800 ≤ high ∧ high < 0xdc00 then
      if 0xdc00 ≤ low ∧ low < 0xe000 then
        let c := Char.ofNat (0x10000 + (high - 0xd800) * 0x400 + (low - 0xdc00))
        (joinHalves? rest).map (c :: ·)
      else none
    else if 0xdc00 ≤ high ∧ high < 0xe000 then none
    else (joinHalves? (low :: rest)).map (Char.ofNat high :: ·)
  | [c] => if 0xd800 ≤ c ∧ c < 0xe000 then none else some [Char.ofNat c]

def text? (cs : List Char) : Option (JsonText × List Char) :=
  (quoted? cs).map fun (units, rest) => ((joinHalves? units).map String.ofList, rest)

def expect? (c : Char) (cs : List Char) : Option (List Char) :=
  match skipBlanks cs with
  | d :: rest => if c = d then some rest else none
  | [] => none

def word? (word : List Char) (value : Json) (cs : List Char) : Option (Json × List Char) :=
  if word.isPrefixOf cs then some (value, cs.drop word.length) else none

mutual

def value? : Nat → List Char → Option (Json × List Char)
  | 0, _ => none
  | fuel + 1, cs =>
    match skipBlanks cs with
    | 'n' :: rest => word? ['u', 'l', 'l'] .null rest
    | 't' :: rest => word? ['r', 'u', 'e'] (.bool true) rest
    | 'f' :: rest => word? ['a', 'l', 's', 'e'] (.bool false) rest
    | '"' :: rest => (text? rest).map fun (s, rest) => (.string s, rest)
    | '[' :: rest =>
      match skipBlanks rest with
      | ']' :: rest => some (.array [], rest)
      | rest => (items? fuel rest).map fun (items, rest) => (.array items, rest)
    | '\x7b' :: rest =>
      match skipBlanks rest with
      | '\x7d' :: rest => some (.object [], rest)
      | rest => (members? fuel rest).map fun (members, rest) => (.object members, rest)
    | rest => (numeral? rest).map fun (n, rest) => (.number n, rest)

def items? : Nat → List Char → Option (List Json × List Char)
  | 0, _ => none
  | fuel + 1, cs => do
    let (item, cs) ← value? fuel cs
    match skipBlanks cs with
    | ']' :: rest => some ([item], rest)
    | ',' :: rest => (items? fuel rest).map fun (items, rest) => (item :: items, rest)
    | _ => none

def members? : Nat → List Char → Option (List (JsonText × Json) × List Char)
  | 0, _ => none
  | fuel + 1, cs => do
    let cs ← expect? '"' cs
    let (name, cs) ← text? cs
    let cs ← expect? ':' cs
    let (item, cs) ← value? fuel cs
    match skipBlanks cs with
    | '\x7d' :: rest => some ([(name, item)], rest)
    | ',' :: rest =>
      (members? fuel rest).map fun (members, rest) => ((name, item) :: members, rest)
    | _ => none

end

/-- Reads a text that holds one value and nothing else but blanks. A value or a list of them
takes at least one character for every two steps into it. -/
def parse? (text : String) : Option Json :=
  let cs := text.toList
  match value? (2 * cs.length + 2) cs with
  | some (value, rest) => if (skipBlanks rest).isEmpty then some value else none
  | none => none

end Json

end FrameSync
