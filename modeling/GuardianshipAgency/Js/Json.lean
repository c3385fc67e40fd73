import Mathlib

/-!
# JavaScript values that come out of `JSON.parse`

`undefined` is `none` in `Option Json`. Numbers are exact rationals, each of which stands for the double nearest to it,
or for an infinity where it is too large. A lone surrogate in a string literal reads as U+FFFD.
-/

namespace Js

/-- What a `throw` carries. `details` is the field of that name where it is a string. -/
structure JsError where
  name : String
  message : String
  code : String := ""
  details : Option String := none
deriving DecidableEq, Repr

inductive Json where
  | null
  | bool (b : Bool)
  | num (q : ℚ)
  | str (s : String)
  | arr (xs : List Json)
  | obj (kvs : List (String × Json))

namespace Json

/-! ## Equality -/

mutual
def beq : Json → Json → Bool
  | .null, .null => true
  | .bool a, .bool b => a == b
  | .num a, .num b => a == b
  | .str a, .str b => a == b
  | .arr xs, .arr ys => beqList xs ys
  | .obj kvs, .obj kvs' => beqKvs kvs kvs'
  | _, _ => false

def beqList : List Json → List Json → Bool
  | [], [] => true
  | x :: xs, y :: ys => beq x y && beqList xs ys
  | _, _ => false

def beqKvs : List (String × Json) → List (String × Json) → Bool
  | [], [] => true
  | (k, v) :: kvs, (k', v') :: kvs' => k == k' && beq v v' && beqKvs kvs kvs'
  | _, _ => false
end

mutual
theorem beq_iff : (a b : Json) → (beq a b = true ↔ a = b)
  | .null, b => by cases b <;> simp [beq]
  | .bool _, b => by cases b <;> simp [beq]
  | .num _, b => by cases b <;> simp [beq]
  | .str _, b => by cases b <;> simp [beq]
  | .arr xs, b => by
      cases b with
      | arr ys => simpa [beq] using beqList_iff xs ys
      | _ => simp [beq]
  | .obj kvs, b => by
      cases b with
      | obj kvs' => simpa [beq] using beqKvs_iff kvs kvs'
      | _ => simp [beq]

theorem beqList_iff : (xs ys : List Json) → (beqList xs ys = true ↔ xs = ys)
  | [], ys => by cases ys <;> simp [beqList]
  | x :: xs, [] => by simp [beqList]
  | x :: xs, y :: ys => by simp [beqList, beq_iff x y, beqList_iff xs ys]

theorem beqKvs_iff : (kvs kvs' : List (String × Json)) → (beqKvs kvs kvs' = true ↔ kvs = kvs')
  | [], kvs' => by cases kvs' <;> simp [beqKvs]
  | (k, v) :: kvs, [] => by simp [beqKvs]
  | (k, v) :: kvs, (k', v') :: kvs' => by
      simp [beqKvs, beq_iff v v', beqKvs_iff kvs kvs', and_assoc]
end

instance : DecidableEq Json := fun a b => decidable_of_iff (beq a b = true) (beq_iff a b)

/-! ## Access -/

def typeError (message : String) : JsError := { name := "TypeError", message }

/-- Property access `v.key`. Only `undefined` and `null` have no properties at all. -/
def prop (v : Option Json) (key : String) : Except JsError (Option Json) :=
  match v with
  | none => .error (typeError ("Cannot read properties of undefined (reading '" ++ key ++ "')"))
  | some .null => .error (typeError ("Cannot read properties of null (reading '" ++ key ++ "')"))
  | some (.obj kvs) => .ok ((kvs.find? fun kv => kv.1 == key).map Prod.snd)
  | some _ => .ok none

/-- The value of `v.key` where it has one, else `undefined`. -/
def field (v : Option Json) (key : String) : Option Json := ((prop v key).toOption).join

mutual
/-- Whether `${v}` has a value. An object with an own `toString`, which in parsed JSON is no function, has
none; an array joins its elements. -/
def printable : Json → Bool
  | .obj kvs => kvs.all fun kv => kv.1 != "toString"
  | .arr xs => printableList xs
  | _ => true

def printableList : List Json → Bool
  | [] => true
  | x :: xs => printable x && printableList xs
end

/-- Evaluates a template literal `${v}` for its effect, which is that it may throw. -/
def template (v : Option Json) : Except JsError Unit :=
  if v.all printable then .ok () else .error (typeError "Cannot convert object to primitive value")

/-! ## `JSON.parse` -/

def skipWs : List Char → List Char
  | c :: cs => if c == ' ' || c == '\t' || c == '\n' || c == '\r' then skipWs cs else c :: cs
  | [] => []

def hexVal (c : Char) : Option Nat :=
  if '0' ≤ c ∧ c ≤ '9' then some (c.toNat - '0'.toNat)
  else if 'a' ≤ c ∧ c ≤ 'f' then some (c.toNat - 'a'.toNat + 10)
  else if 'A' ≤ c ∧ c ≤ 'F' then some (c.toNat - 'A'.toNat + 10)
  else none

def hex4 (a b c d : Char) : Option Nat := do
  return (((← hexVal a) * 16 + (← hexVal b)) * 16 + (← hexVal c)) * 16 + (← hexVal d)

/-- Joins the code units of a surrogate pair. Every other code unit stands for itself. -/
def decodeUnits : List Nat → List Char
  | hi :: lo :: us =>
      if 0xD800 ≤ hi ∧ hi < 0xDC00 ∧ 0xDC00 ≤ lo ∧ lo < 0xE000 then
        Char.ofNat (0x10000 + (hi - 0xD800) * 0x400 + (lo - 0xDC00)) :: decodeUnits us
      else
        unit hi :: decodeUnits (lo :: us)
  | [u] => [unit u]
  | [] => []
where
  unit (u : Nat) : Char := if 0xD800 ≤ u ∧ u < 0xE000 then '\uFFFD' else Char.ofNat u

/-- The rest of a string literal after its opening quote, as code units and characters above them. -/
def stringBody : List Char → Option (List Nat × List Char)
  | '"' :: cs => some ([], cs)
  | '\\' :: 'u' :: a :: b :: c :: d :: cs => do
      let u ← hex4 a b c d
      let (us, rest) ← stringBody cs
      return (u :: us, rest)
  | '\\' :: e :: cs => do
      let u ← escape e
      let (us, rest) ← stringBody cs
      return (u :: us, rest)
  | c :: cs =>
      if c.toNat < 0x20 then none
      else do
        let (us, rest) ← stringBody cs
        return (c.toNat :: us, rest)
  | [] => none
where
  escape (e : Char) : Option Nat :=
    match e with
    | '"' => some 0x22
    | '\\' => some 0x5C
    | '/' => some 0x2F
    | 'b' => some 0x08
    | 'f' => some 0x0C
    | 'n' => some 0x0A
    | 'r' => some 0x0D
    | 't' => some 0x09
    | _ => none

def digitsVal (ds : List Char) : Nat := ds.foldl (fun n d => n * 10 + (d.toNat - '0'.toNat)) 0

/-- An optional fraction `.digits`: its digits. -/
def fraction : List Char → Option (List Char × List Char)
  | '.' :: cs =>
      let (ds, rest) := cs.span Char.isDigit
      if ds.isEmpty then none else some (ds, rest)
  | cs => some ([], cs)

def exponent (cs : List Char) : Option (Int × List Char) :=
  match cs with
  | e :: rest =>
      if e == 'e' || e == 'E' then
        let (neg, rest) := match rest with
          | '-' :: r => (true, r)
          | '+' :: r => (false, r)
          | r => (false, r)
        let (ds, rest) := rest.span Char.isDigit
        if ds.isEmpty then none
        else some (if neg then -(digitsVal ds : Int) else digitsVal ds, rest)
      else some (0, cs)
  | [] => some (0, [])

def number (cs : List Char) : Option (ℚ × List Char) := do
  let (neg, cs) := match cs with
    | '-' :: r => (true, r)
    | r => (false, r)
  let (ds, cs) := cs.span Char.isDigit
  if ds.isEmpty ∨ (ds.length > 1 ∧ ds.head? = some '0') then none
  else
    let (fs, cs) ← fraction cs
    let (ex, cs) ← exponent cs
    let m : ℚ := digitsVal (ds ++ fs)
    let shift : Int := ex - fs.length
    let q := if shift < 0 then m / (10 ^ shift.natAbs : Nat) else m * (10 ^ shift.natAbs : Nat)
    return (if neg then -q else q, cs)

/-- The last of several members with one name counts. -/
def member (kvs : List (String × Json)) (k : String) (v : Json) : List (String × Json) :=
  kvs.filter (fun kv => kv.1 != k) ++ [(k, v)]

mutual
def value : Nat → List Char → Option (Json × List Char)
  | 0, _ => none
  | n + 1, cs =>
      match skipWs cs with
      | '{' :: cs =>
          match skipWs cs with
          | '}' :: rest => some (.obj [], rest)
          | cs => members n [] cs
      | '[' :: cs =>
          match skipWs cs with
          | ']' :: rest => some (.arr [], rest)
          | cs => elements n [] cs
      | '"' :: cs => (stringBody cs).map fun (us, rest) => (.str (String.ofList (decodeUnits us)), rest)
      | 't' :: 'r' :: 'u' :: 'e' :: rest => some (.bool true, rest)
      | 'f' :: 'a' :: 'l' :: 's' :: 'e' :: rest => some (.bool false, rest)
      | 'n' :: 'u' :: 'l' :: 'l' :: rest => some (.null, rest)
      | cs => (number cs).map fun (q, rest) => (.num q, rest)

def elements : Nat → List Json → List Char → Option (Json × List Char)
  | 0, _, _ => none
  | n + 1, xs, cs =>
      match value n cs with
      | none => none
      | some (x, cs) =>
          match skipWs cs with
          | ',' :: cs => elements n (xs ++ [x]) cs
          | ']' :: rest => some (.arr (xs ++ [x]), rest)
          | _ => none

def members : Nat → List (String × Json) → List Char → Option (Json × List Char)
  | 0, _, _ => none
  | n + 1, kvs, cs =>
      match skipWs cs with
      | '"' :: cs =>
          match stringBody cs with
          | none => none
          | some (us, cs) =>
              match skipWs cs with
              | ':' :: cs =>
                  match value n cs with
                  | none => none
                  | some (v, cs) =>
                      let kvs := member kvs (String.ofList (decodeUnits us)) v
                      match skipWs cs with
                      | ',' :: cs => members n kvs cs
                      | '}' :: rest => some (.obj kvs, rest)
                      | _ => none
              | _ => none
      | _ => none
end

/-- `JSON.parse`. Each recursive call of the parser consumes a character or follows one that did, so twice the
length is enough. -/
def parse (text : String) : Except JsError Json :=
  match value (2 * text.toList.length + 2) text.toList with
  | some (v, rest) =>
      if (skipWs rest).isEmpty then .ok v
      else .error { name := "SyntaxError", message := "Unexpected token in JSON" }
  | none => .error { name := "SyntaxError", message := "Unexpected token in JSON" }

example : parse "\x7b\"a\": [1, -2.5e1, \"x\\u0041\"], \"b\": null\x7d" =
    .ok (.obj [("a", .arr [.num 1, .num (-25), .str "xA"]), ("b", .null)]) := by decide +kernel

example : (parse "plain text").isOk = false := by decide +kernel

end Json

end Js
