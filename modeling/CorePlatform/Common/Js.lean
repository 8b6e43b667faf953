/-! JavaScript values as the services exchange and inspect them. A number is carried
as the text `Number::toString` gives it, since the code only compares and prints
the numbers that reach these values. Objects keep their fields in insertion order. -/
namespace CorePlatform

inductive Js where
  | undefined
  | null
  | bool (b : Bool)
  | num (text : String)
  | str (s : String)
  | arr (xs : List Js)
  | obj (fields : List (String × Js))

namespace Js

mutual

def decEq : (a b : Js) → Decidable (a = b)
  | .undefined, b => match b with
    | .undefined => isTrue rfl
    | .null | .bool _ | .num _ | .str _ | .arr _ | .obj _ => isFalse nofun
  | .null, b => match b with
    | .null => isTrue rfl
    | .undefined | .bool _ | .num _ | .str _ | .arr _ | .obj _ => isFalse nofun
  | .bool x, b => match b with
    | .bool y => decidable_of_iff (x = y) (by simp)
    | .undefined | .null | .num _ | .str _ | .arr _ | .obj _ => isFalse nofun
  | .num x, b => match b with
    | .num y => decidable_of_iff (x = y) (by simp)
    | .undefined | .null | .bool _ | .str _ | .arr _ | .obj _ => isFalse nofun
  | .str x, b => match b with
    | .str y => decidable_of_iff (x = y) (by simp)
    | .undefined | .null | .bool _ | .num _ | .arr _ | .obj _ => isFalse nofun
  | .arr xs, b => match b with
    | .arr ys => @decidable_of_iff _ (xs = ys) (by simp) (decEqElems xs ys)
    | .undefined | .null | .bool _ | .num _ | .str _ | .obj _ => isFalse nofun
  | .obj xs, b => match b with
    | .obj ys => @decidable_of_iff _ (xs = ys) (by simp) (decEqFields xs ys)
    | .undefined | .null | .bool _ | .num _ | .str _ | .arr _ => isFalse nofun

def decEqElems : (xs ys : List Js) → Decidable (xs = ys)
  | [], [] => isTrue rfl
  | [], _ :: _ | _ :: _, [] => isFalse nofun
  | x :: xs, y :: ys =>
    @decidable_of_iff _ (x = y ∧ xs = ys) (by simp)
      (@instDecidableAnd _ _ (decEq x y) (decEqElems xs ys))

def decEqFields : (xs ys : List (String × Js)) → Decidable (xs = ys)
  | [], [] => isTrue rfl
  | [], _ :: _ | _ :: _, [] => isFalse nofun
  | x :: xs, y :: ys =>
    @decidable_of_iff _ (x = y ∧ xs = ys) (by simp)
      (@instDecidableAnd _ _ (decEqField x y) (decEqFields xs ys))

def decEqField : (x y : String × Js) → Decidable (x = y)
  | (n, x), (m, y) =>
    @decidable_of_iff _ (n = m ∧ x = y) (by simp)
      (@instDecidableAnd _ _ (inferInstance) (decEq x y))

end

instance : DecidableEq Js := decEq

theorem null_ne_undefined : null ≠ undefined := nofun

theorem emptyObject_ne_undefined : obj [] ≠ undefined := nofun

/-- `v?.name` -/
def get (v : Js) (name : String) : Js :=
  match v with
  | .obj fields => (fields.lookup name).getD .undefined
  | _ => .undefined

/-- `v ?? other` -/
def orElse (v other : Js) : Js :=
  match v with
  | .undefined | .null => other
  | v => v

def truthy : Js → Bool
  | .undefined | .null => false
  | .bool b => b
  | .num text => text != "0" && text != "NaN"
  | .str s => s != ""
  | .arr _ | .obj _ => true

def ofString? : Option String → Js
  | none => .undefined
  | some s => .str s

def ofInt? : Option Int → Js
  | none => .undefined
  | some n => .num (toString n)

/-- A value used where a string or `undefined` is expected. -/
def string? : Js → Option String
  | .str s => some s
  | _ => none

/-- The white space and line terminators that `String.prototype.trim` removes. -/
def isSpace (c : Char) : Bool :=
  (9 ≤ c.toNat && c.toNat ≤ 13) || (0x2000 ≤ c.toNat && c.toNat ≤ 0x200a) ||
    c.toNat ∈ [0x20, 0xa0, 0x1680, 0x2028, 0x2029, 0x202f, 0x205f, 0x3000, 0xfeff]

/-- `s.trim()` -/
def trim (s : String) : String :=
  String.ofList (((s.toList.dropWhile isSpace).reverse.dropWhile isSpace).reverse)

mutual

/-- `String(v)` -/
def toText : Js → String
  | .undefined => "undefined"
  | .null => "null"
  | .bool true => "true"
  | .bool false => "false"
  | .num text => text
  | .str s => s
  | .arr xs => ",".intercalate (toTexts xs)
  | .obj _ => "[object Object]"

/-- The elements as `Array.prototype.join` writes them. -/
def toTexts : List Js → List String
  | [] => []
  | .undefined :: xs | .null :: xs => "" :: toTexts xs
  | x :: xs => toText x :: toTexts xs

end

mutual

/-- Whether the conversion to a string succeeds. An object whose own `toString` field hides
the inherited method has none. -/
def printable : Js → Bool
  | .obj fields => (fields.lookup "toString").isNone
  | .arr xs => printables xs
  | _ => true

def printables : List Js → Bool
  | [] => true
  | x :: xs => printable x && printables xs

end

/-- `${v}`, absent where it throws. -/
def template? (v : Js) : Option String := if v.printable then some v.toText else none

/-- QuoteJSONString, one code point. -/
def quoteChar (c : Char) : String :=
  if c = '"' then "\\\"" else if c = '\\' then "\\\\"
  else if c.toNat = 8 then "\\b" else if c.toNat = 12 then "\\f"
  else if c = '\n' then "\\n" else if c = '\r' then "\\r" else if c = '\t' then "\\t"
  else if c.toNat < 32 then
    "\\u00" ++ String.singleton (Nat.digitChar (c.toNat / 16)) ++
      String.singleton (Nat.digitChar (c.toNat % 16))
  else String.singleton c

def quote (s : String) : String := "\"" ++ String.join (s.toList.map quoteChar) ++ "\""

def isFinite (text : String) : Bool := text ∉ ["NaN", "Infinity", "-Infinity"]

mutual

/-- `JSON.stringify`: absent for `undefined`, which objects leave out and arrays
write as `null`. -/
def stringify : Js → Option String
  | .undefined => none
  | .null => some "null"
  | .bool true => some "true"
  | .bool false => some "false"
  | .num text => some (if isFinite text then text else "null")
  | .str s => some (quote s)
  | .arr xs => some ("[" ++ ",".intercalate (elems xs) ++ "]")
  | .obj fields => some ("\x7b" ++ ",".intercalate (members fields) ++ "\x7d")

def elems : List Js → List String
  | [] => []
  | x :: xs => (stringify x).getD "null" :: elems xs

def members : List (String × Js) → List String
  | [] => []
  | f :: rest => member f ++ members rest

def member : String × Js → List String
  | (name, value) =>
    match stringify value with
    | none => []
    | some text => [quote name ++ ":" ++ text]

end

example : stringify (.obj [("a", .num "1"), ("b", .arr [.undefined, .str "x\"y"]),
    ("c", .undefined)]) = some "\x7b\"a\":1,\"b\":[null,\"x\\\"y\"]\x7d" := by decide

end Js
end CorePlatform
