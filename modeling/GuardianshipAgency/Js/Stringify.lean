import GuardianshipAgency.Js.Json
import GuardianshipAgency.Js.Number

/-!
# `JSON.stringify`

The members of an object are written in the order of the list. (JavaScript puts names that are array indices first.)
-/

namespace Js.Json

/-! ## Texts -/

/-- A character of a string in its literal. -/
def quoteChar (c : Char) : List Char :=
  if c = '"' then ['\\', '"']
  else if c = '\\' then ['\\', '\\']
  else if c = '\x08' then ['\\', 'b']
  else if c = '\x0c' then ['\\', 'f']
  else if c = '\n' then ['\\', 'n']
  else if c = '\r' then ['\\', 'r']
  else if c = '\t' then ['\\', 't']
  else if c.toNat < 0x20 then ['\\', 'u', '0', '0', (c.toNat / 16).digitChar, (c.toNat % 16).digitChar]
  else [c]

def quote (s : String) : List Char := '"' :: s.toList.flatMap quoteChar ++ ['"']

/-- The least number that is read as `Infinity`: halfway from the largest double to `2 ^ 1024`. -/
def overflow : ℚ := 2 ^ 1024 - 2 ^ 970

def isFinite (q : ℚ) : Bool := decide (-overflow < q ∧ q < overflow)

mutual
def chars : Json → List Char
  | .null => "null".toList
  | .bool true => "true".toList
  | .bool false => "false".toList
  | .num q => if isFinite q then (numberText (some q)).toList else "null".toList
  | .str s => quote s
  | .arr [] => ['[', ']']
  | .arr (x :: xs) => '[' :: (chars x ++ itemsChars xs)
  | .obj [] => ['{', '}']
  | .obj ((k, v) :: kvs) => '{' :: (quote k ++ ':' :: (chars v ++ membersChars kvs))

/-- What follows the first item of an array. -/
def itemsChars : List Json → List Char
  | [] => [']']
  | x :: xs => ',' :: (chars x ++ itemsChars xs)

/-- What follows the first member of an object. -/
def membersChars : List (String × Json) → List Char
  | [] => ['}']
  | (k, v) :: kvs => ',' :: (quote k ++ ':' :: (chars v ++ membersChars kvs))
end

def stringify (v : Json) : String := String.ofList (chars v)

/-- An object literal. Fields that are `undefined` are left out of its text. -/
def ofFields (fields : List (String × Option Json)) : Json :=
  .obj (fields.filterMap fun kv => kv.2.map fun v => (kv.1, v))

example : stringify (ofFields [("a", some (.arr [.num 1, .num (-5 / 2), .str "x\n\"y\""])), ("b", none),
    ("c", some (.num (10 ^ 400)))]) = "\x7b\"a\":[1,-2.5,\"x\\n\\\"y\\\"\"],\"c\":null\x7d" := by decide +kernel

/-! ## What a text says -/

/-- The number whose digits `numberText` writes. -/
def positiveShown (q : ℚ) : ℚ := digitsVal (significant q).1 * 10 ^ ((significant q).2 - (significant q).1.length)

def numberShown (q : ℚ) : ℚ := if q == 0 then 0 else if q < 0 then -positiveShown (-q) else positiveShown q

mutual
/-- The value that the text of `v` is read as. -/
def shown : Json → Json
  | .num q => if isFinite q then .num (numberShown q) else .null
  | .arr xs => .arr (shownItems xs)
  | .obj kvs => .obj (shownMembers [] kvs)
  | v => v

def shownItems : List Json → List Json
  | [] => []
  | x :: xs => shown x :: shownItems xs

def shownMembers : List (String × Json) → List (String × Json) → List (String × Json)
  | acc, [] => acc
  | acc, (k, v) :: kvs => shownMembers (member acc k (shown v)) kvs
end

mutual
/-- Numbers are decimal fractions, and no object has two members with one name. -/
def Plain : Json → Prop
  | .num q => ∃ k : ℕ, q.den ∣ 10 ^ k
  | .arr xs => PlainItems xs
  | .obj kvs => (kvs.map Prod.fst).Nodup ∧ PlainMembers kvs
  | _ => True

def PlainItems : List Json → Prop
  | [] => True
  | x :: xs => Plain x ∧ PlainItems xs

def PlainMembers : List (String × Json) → Prop
  | [] => True
  | (_, v) :: kvs => Plain v ∧ PlainMembers kvs
end

mutual
/-- No number is infinite. -/
def finite : Json → Bool
  | .num q => isFinite q
  | .arr xs => finiteItems xs
  | .obj kvs => finiteMembers kvs
  | _ => true

def finiteItems : List Json → Bool
  | [] => true
  | x :: xs => finite x && finiteItems xs

def finiteMembers : List (String × Json) → Bool
  | [] => true
  | (_, v) :: kvs => finite v && finiteMembers kvs
end

/-- Nothing of the value is lost in its text. -/
structure Exact (v : Json) : Prop where
  plain : v.Plain
  finite : v.finite = true

end Js.Json
