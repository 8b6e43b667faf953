import CorePlatform.Common.Js
import Mathlib.Data.List.TakeWhile
import Mathlib.Data.String.Basic

/-! `JSON.parse`, and what it makes of a text that `JSON.stringify` has written. A number keeps
the text it is written with; an escaped surrogate has to be half of a pair. -/
namespace CorePlatform.JSON

def isBlank (c : Char) : Bool := c = ' ' || c = '\t' || c = '\n' || c = '\r'

/-- The first character that is not blank, and what follows it. -/
def next? (cs : List Char) : Option (Char × List Char) :=
  match cs.dropWhile isBlank with
  | [] => none
  | c :: rest => some (c, rest)

def hexDigit? (c : Char) : Option Nat :=
  if c.isDigit then some (c.toNat - 48)
  else if 'a' ≤ c ∧ c ≤ 'f' then some (c.toNat - 87)
  else if 'A' ≤ c ∧ c ≤ 'F' then some (c.toNat - 55)
  else none

/-- The code unit of four hexadecimal digits. -/
def unit? : List Char → Option (Nat × List Char)
  | a :: b :: c :: d :: rest => do
    let unit := 4096 * (← hexDigit? a) + 256 * (← hexDigit? b) + 16 * (← hexDigit? c)
    return (unit + (← hexDigit? d), rest)
  | _ => none

/-- What stands after a backslash. -/
def escape? : List Char → Option (Char × List Char)
  | 'u' :: rest => do
    let (unit, rest) ← unit? rest
    if unit < 0xd800 ∨ 0xe000 ≤ unit then return (Char.ofNat unit, rest)
    else match rest with
      | '\\' :: 'u' :: rest => do
        let (low, rest) ← unit? rest
        if unit < 0xdc00 ∧ 0xdc00 ≤ low ∧ low < 0xe000 then
          return (Char.ofNat (0x10000 + 1024 * (unit - 0xd800) + (low - 0xdc00)), rest)
        else none
      | _ => none
  | c :: rest =>
    ([('"', '"'), ('\\', '\\'), ('/', '/'), ('b', '\x08'), ('f', '\x0c'), ('n', '\n'), ('r', '\r'),
      ('t', '\t')].lookup c).map (·, rest)
  | [] => none

/-- The characters up to the closing quote. -/
def chars : Nat → List Char → Option (List Char × List Char)
  | n + 1, c :: rest =>
    if c = '"' then some ([], rest)
    else if c = '\\' then do
      let (c, rest) ← escape? rest
      (chars n rest).map fun (cs, rest) => (c :: cs, rest)
    else if c.toNat < 32 then none
    else (chars n rest).map fun (cs, rest) => (c :: cs, rest)
  | _, _ => none

def string (cs : List Char) : Option (String × List Char) :=
  (chars cs.length cs).map fun (cs, rest) => (String.ofList cs, rest)

def isExponent : List Char → Bool
  | [] => true
  | c :: '+' :: rest | c :: '-' :: rest =>
      (c = 'e' || c = 'E') && rest ≠ [] && rest.all Char.isDigit
  | c :: rest => (c = 'e' || c = 'E') && rest ≠ [] && rest.all Char.isDigit

def isFraction : List Char → Bool
  | '.' :: c :: rest => c.isDigit && isExponent (rest.dropWhile Char.isDigit)
  | rest => isExponent rest

def isUnsigned : List Char → Bool
  | '0' :: rest => isFraction rest
  | c :: rest => c.isDigit && isFraction (rest.dropWhile Char.isDigit)
  | [] => false

def isNumber : List Char → Bool
  | '-' :: rest => isUnsigned rest
  | cs => isUnsigned cs

/-- The characters of numbers and of `true`, `false` and `null`. -/
def isWord (c : Char) : Bool := c.isAlphanum || c = '+' || c = '-' || c = '.'

def word (cs : List Char) : Option Js :=
  if cs = "null".toList then some .null
  else if cs = "true".toList then some (.bool true)
  else if cs = "false".toList then some (.bool false)
  else if isNumber cs then some (.num (String.ofList cs))
  else none

/-- A member in front of others, of which a later one of the same name has the value. -/
def assign (name : String) (value : Js) (fields : List (String × Js)) : List (String × Js) :=
  (name, (fields.lookup name).getD value) :: fields.filter (·.1 ≠ name)

mutual

def value : Nat → List Char → Option (Js × List Char)
  | 0, _ => none
  | n + 1, cs => do
    let (c, rest) ← next? cs
    if c = '"' then (string rest).map fun (s, rest) => (.str s, rest)
    else if c = '[' then
      match next? rest with
      | some (']', rest) => some (.arr [], rest)
      | _ => (elements n rest).map fun (xs, rest) => (.arr xs, rest)
    else if c = '\x7b' then
      match next? rest with
      | some ('\x7d', rest) => some (.obj [], rest)
      | _ => (members n rest).map fun (fields, rest) => (.obj fields, rest)
    else (word ((c :: rest).takeWhile isWord)).map (·, (c :: rest).dropWhile isWord)

def elements : Nat → List Char → Option (List Js × List Char)
  | 0, _ => none
  | n + 1, cs => do
    let (x, rest) ← value n cs
    match ← next? rest with
    | (',', rest) => (elements n rest).map fun (xs, rest) => (x :: xs, rest)
    | (']', rest) => some ([x], rest)
    | _ => none

def members : Nat → List Char → Option (List (String × Js) × List Char)
  | 0, _ => none
  | n + 1, cs => do
    let ('"', rest) ← next? cs | none
    let (name, rest) ← string rest
    let (':', rest) ← next? rest | none
    let (x, rest) ← value n rest
    match ← next? rest with
    | (',', rest) => (members n rest).map fun (fields, rest) => (assign name x fields, rest)
    | ('\x7d', rest) => some ([(name, x)], rest)
    | _ => none

end

/-- `JSON.parse(text)`, none where it throws. -/
def parse (text : String) : Option Js := do
  let (x, rest) ← value (text.toList.length + 1) text.toList
  if next? rest = none then return x else none

example : parse " \x7b\"a\": [1, -2.5e3, \"x\\u00e9\\n\"], \"b\": null, \"a\": true \x7d " =
    some (.obj [("a", .bool true), ("b", .null)]) := by decide +kernel

/-! What `JSON.parse(JSON.stringify(value))` gives. -/

mutual

/-- An element without a value is written as `null`. -/
def decoded : Js → Js
  | .undefined => .null
  | .num text => if Js.isFinite text then .num text else .null
  | .arr xs => .arr (decodedElems xs)
  | .obj fields => .obj (decodedFields fields)
  | v => v

def decodedElems : List Js → List Js
  | [] => []
  | x :: xs => decoded x :: decodedElems xs

def decodedFields : List (String × Js) → List (String × Js)
  | [] => []
  | f :: rest => decodedField f ++ decodedFields rest

/-- A member without a value is left out. -/
def decodedField : String × Js → List (String × Js)
  | (_, .undefined) => []
  | (name, x) => [(name, decoded x)]

end

mutual

/-- A number has the text of a number, and the names of an object are distinct. -/
def isValue : Js → Bool
  | .num text => !Js.isFinite text || isNumber text.toList
  | .arr xs => areValues xs
  | .obj fields => decide (fields.map Prod.fst).Nodup && haveValues fields
  | _ => true

def areValues : List Js → Bool
  | [] => true
  | x :: xs => isValue x && areValues xs

def haveValues : List (String × Js) → Bool
  | [] => true
  | f :: rest => hasValue f && haveValues rest

def hasValue : String × Js → Bool
  | (_, x) => isValue x

end

section Texts

theorem hexDigit?_digitChar : ∀ d < 16, hexDigit? (Nat.digitChar d) = some d := by decide

theorem escape?_control {c : Char} (control : c.toNat < 32) (rest : List Char) :
    escape? ('u' :: '0' :: '0' :: Nat.digitChar (c.toNat / 16) :: Nat.digitChar (c.toNat % 16) ::
      rest) = some (c, rest) := by
  have high := hexDigit?_digitChar (c.toNat / 16) (by omega)
  have low := hexDigit?_digitChar (c.toNat % 16) (by omega)
  have zero : hexDigit? '0' = some 0 := by decide
  have whole : 4096 * 0 + 256 * 0 + 16 * (c.toNat / 16) + c.toNat % 16 = c.toNat := by omega
  simp only [escape?, unit?, zero, high, low, Option.bind_eq_bind, Option.bind_some,
    Option.pure_def, whole]
  rw [if_pos (by omega), Char.ofNat_toNat]

/-- A quoted character is read back. -/
theorem chars_quoteChar (n : Nat) (c : Char) (rest : List Char) :
    chars (n + 1) ((Js.quoteChar c).toList ++ rest) =
      (chars n rest).map fun (cs, rest) => (c :: cs, rest) := by
  have escaped : ∀ {front : List Char}, escape? (front ++ rest) = some (c, rest) →
      chars (n + 1) ('\\' :: front ++ rest) = (chars n rest).map fun (cs, rest) =>
        (c :: cs, rest) := by
    intro front read
    simp only [List.cons_append, chars, Char.reduceEq, if_false, if_true, read,
      Option.bind_eq_bind, Option.bind_some]
  unfold Js.quoteChar
  split_ifs with quote backslash backspace feed newline carriage tab control
  · subst quote; exact escaped rfl
  · subst backslash; exact escaped rfl
  · obtain rfl : c = '\x08' := Char.toNat_inj.mp backspace
    exact escaped rfl
  · obtain rfl : c = '\x0c' := Char.toNat_inj.mp feed
    exact escaped rfl
  · subst newline; exact escaped rfl
  · subst carriage; exact escaped rfl
  · subst tab; exact escaped rfl
  · simp only [String.toList_append, String.toList_singleton]
    exact escaped (escape?_control control rest)
  · simp only [String.toList_singleton, List.singleton_append, chars, quote, backslash, control,
      if_false]

theorem chars_quote {n : Nat} (cs rest : List Char) (bound : cs.length < n) :
    chars n ((cs.map Js.quoteChar).flatMap String.toList ++ '"' :: rest) = some (cs, rest) := by
  induction cs generalizing n with
  | nil =>
    obtain ⟨n, rfl⟩ := Nat.exists_eq_succ_of_ne_zero (Nat.ne_of_gt bound)
    rfl
  | cons c cs ih =>
    obtain ⟨n, rfl⟩ := Nat.exists_eq_succ_of_ne_zero (Nat.ne_zero_of_lt bound)
    rw [List.map_cons, List.flatMap_cons, List.append_assoc, chars_quoteChar,
      ih (Nat.succ_lt_succ_iff.mp bound)]
    rfl

theorem toList_quote (s : String) : (Js.quote s).toList =
    '"' :: (s.toList.map Js.quoteChar).flatMap String.toList ++ ['"'] := by
  simp only [Js.quote, String.toList_append, String.toList_join]
  rfl

theorem length_le_quoted (cs : List Char) :
    cs.length ≤ ((cs.map Js.quoteChar).flatMap String.toList).length := by
  induction cs with
  | nil => exact Nat.le_refl _
  | cons c cs ih =>
    have filled : (Js.quoteChar c).toList ≠ [] := by
      unfold Js.quoteChar
      split_ifs <;> simp
    have one := List.length_pos_iff.mpr filled
    simp only [List.map_cons, List.flatMap_cons, List.length_append, List.length_cons]
    omega

theorem string_quote (s : String) (rest : List Char) :
    string ((s.toList.map Js.quoteChar).flatMap String.toList ++ '"' :: rest) = some (s, rest) := by
  have bound := length_le_quoted s.toList
  have enough : s.toList.length <
      ((s.toList.map Js.quoteChar).flatMap String.toList ++ '"' :: rest).length := by
    simp only [List.length_append, List.length_cons]
    omega
  rw [string, chars_quote _ _ enough, Option.map_some]
  exact congrArg (fun s => some (s, rest)) String.ofList_toList

end Texts

section Values

/-- A value inside another one. -/
def text (v : Js) : String := v.stringify.getD "null"

/-- A number or a word ends before what follows it. -/
def Ends (rest : List Char) : Prop := ∀ c ∈ rest.head?, isWord c = false

theorem next?_cons {c : Char} (rest : List Char) (plain : isBlank c = false) :
    next? (c :: rest) = some (c, rest) := by
  rw [next?, List.dropWhile_cons_of_neg (Bool.eq_false_iff.mp plain)]

theorem takeWhile_word {cs rest : List Char} (inside : ∀ c ∈ cs, isWord c = true)
    (ends : Ends rest) : (cs ++ rest).takeWhile isWord = cs ∧
      (cs ++ rest).dropWhile isWord = rest := by
  rw [List.takeWhile_append_of_pos inside, List.dropWhile_append_of_pos inside]
  cases rest with
  | nil => exact ⟨List.append_nil cs, rfl⟩
  | cons c rest =>
    have stop : ¬ isWord c = true := Bool.eq_false_iff.mp (ends c rfl)
    rw [List.takeWhile_cons_of_neg stop, List.dropWhile_cons_of_neg stop, List.append_nil]
    exact ⟨rfl, rfl⟩

/-- No value starts with a character of these. -/
def isOther (c : Char) : Bool := isBlank c || c = ']' || c = '\x7d'

theorem isWord_plain {c : Char} (inside : isWord c = true) :
    isOther c = false ∧ c ≠ '"' ∧ c ≠ '[' ∧ c ≠ '\x7b' := by
  have apart : ∀ d ∈ [' ', '\t', '\n', '\r', ']', '\x7d', '"', '[', '\x7b'], c ≠ d := by
    rintro d member rfl
    have outside : ([' ', '\t', '\n', '\r', ']', '\x7d', '"', '[', '\x7b'].all
        fun d => !isWord d) = true := by decide
    have other := List.all_eq_true.mp outside _ member
    rw [inside] at other
    contradiction
  simp only [List.forall_mem_cons] at apart
  obtain ⟨space, tab, newline, carriage, square, brace, quote, array, object, -⟩ := apart
  refine ⟨?_, quote, array, object⟩
  simp only [isOther, isBlank, space, tab, newline, carriage, square, brace, decide_false,
    Bool.or_false]

theorem isWord_of_isDigit {c : Char} (digit : c.isDigit = true) : isWord c = true := by
  simp only [isWord, Char.isAlphanum, digit, Bool.or_true, Bool.true_or]

theorem isWord_exponent {cs : List Char} (exponent : isExponent cs = true) :
    ∀ c ∈ cs, isWord c = true := by
  have letter : ∀ {c : Char}, c = 'e' ∨ c = 'E' → isWord c = true := by
    rintro c (rfl | rfl) <;> decide
  have digits : ∀ {rest : List Char}, rest.all Char.isDigit = true →
      ∀ c ∈ rest, isWord c = true := fun all c member =>
    isWord_of_isDigit (List.all_eq_true.mp all c member)
  unfold isExponent at exponent
  split at exponent
  · exact List.forall_mem_nil _
  all_goals
    simp only [Bool.and_eq_true, Bool.or_eq_true, decide_eq_true_eq] at exponent
    obtain ⟨⟨first, -⟩, all⟩ := exponent
  · exact List.forall_mem_cons.mpr ⟨letter first, List.forall_mem_cons.mpr ⟨rfl, digits all⟩⟩
  · exact List.forall_mem_cons.mpr ⟨letter first, List.forall_mem_cons.mpr ⟨rfl, digits all⟩⟩
  · exact List.forall_mem_cons.mpr ⟨letter first, digits all⟩

/-- Digits in front of what is all of words. -/
theorem isWord_digits {cs : List Char}
    (others : ∀ c ∈ cs.dropWhile Char.isDigit, isWord c = true) : ∀ c ∈ cs, isWord c = true := by
  intro c member
  rw [← List.takeWhile_append_dropWhile (p := Char.isDigit) (l := cs)] at member
  obtain digit | other := List.mem_append.mp member
  · exact isWord_of_isDigit (List.mem_takeWhile_imp digit)
  · exact others c other

theorem isWord_fraction {cs : List Char} (fraction : isFraction cs = true) :
    ∀ c ∈ cs, isWord c = true := by
  unfold isFraction at fraction
  split at fraction
  · obtain ⟨digit, exponent⟩ := (Bool.and_eq_true _ _).mp fraction
    exact List.forall_mem_cons.mpr ⟨rfl, List.forall_mem_cons.mpr
      ⟨isWord_of_isDigit digit, isWord_digits (isWord_exponent exponent)⟩⟩
  · exact isWord_exponent fraction

theorem isWord_unsigned {cs : List Char} (unsigned : isUnsigned cs = true) :
    ∀ c ∈ cs, isWord c = true := by
  unfold isUnsigned at unsigned
  split at unsigned
  · exact List.forall_mem_cons.mpr ⟨rfl, isWord_fraction unsigned⟩
  · obtain ⟨digit, fraction⟩ := (Bool.and_eq_true _ _).mp unsigned
    exact List.forall_mem_cons.mpr
      ⟨isWord_of_isDigit digit, isWord_digits (isWord_fraction fraction)⟩
  · contradiction

theorem isWord_number {cs : List Char} (number : isNumber cs = true) :
    ∀ c ∈ cs, isWord c = true := by
  unfold isNumber at number
  split at number
  · exact List.forall_mem_cons.mpr ⟨rfl, isWord_unsigned number⟩
  · exact isWord_unsigned number

theorem word_number {cs : List Char} (number : isNumber cs = true) :
    word cs = some (.num (String.ofList cs)) := by
  have other : ∀ {text : List Char}, isNumber text = false → cs ≠ text := by
    rintro text none rfl
    exact absurd number (Bool.eq_false_iff.mp none)
  rw [word, if_neg (other (by decide)), if_neg (other (by decide)), if_neg (other (by decide)),
    if_pos number]

theorem number_ne_nil {cs : List Char} (number : isNumber cs = true) : cs ≠ [] := by
  rintro rfl
  contradiction

/-- A text that is one word. -/
theorem value_word {n : Nat} {cs rest : List Char} {v : Js} (read : word cs = some v)
    (inside : ∀ c ∈ cs, isWord c = true) (filled : cs ≠ []) (ends : Ends rest) :
    value (n + 1) (cs ++ rest) = some (v, rest) := by
  obtain ⟨c, cs, rfl⟩ := List.exists_cons_of_ne_nil filled
  obtain ⟨plain, quote, array, object⟩ := isWord_plain (inside c List.mem_cons_self)
  have blank : isBlank c = false := by
    simp only [isOther, Bool.or_eq_false_iff] at plain
    exact plain.1.1
  obtain ⟨taken, dropped⟩ := takeWhile_word inside ends
  rw [List.cons_append] at taken dropped ⊢
  simp only [value, next?_cons _ blank, Option.bind_eq_bind, Option.bind_some, quote, array, object,
    if_false, taken, dropped, read, Option.map_some]

/-- How a text starts. -/
theorem text_head {v : Js} (genuine : isValue v = true) :
    ∃ c rest, (text v).toList = c :: rest ∧ isOther c = false := by
  have word : ∀ cs : List Char, (∀ c ∈ cs, isWord c = true) → cs ≠ [] →
      ∃ c rest, cs = c :: rest ∧ isOther c = false := by
    intro cs inside filled
    obtain ⟨c, rest, rfl⟩ := List.exists_cons_of_ne_nil filled
    exact ⟨c, rest, rfl, (isWord_plain (inside c List.mem_cons_self)).1⟩
  cases v with
  | undefined | null => exact word "null".toList (List.all_eq_true.mp (by decide)) (by decide)
  | bool b => cases b <;> exact ⟨_, _, rfl, rfl⟩
  | num number =>
    simp only [isValue, Bool.or_eq_true, Bool.not_eq_true'] at genuine
    simp only [text, Js.stringify, Option.getD_some]
    split
    · rename_i finite
      have number := genuine.resolve_left (ne_false_of_eq_true finite)
      exact word _ (isWord_number number) (number_ne_nil number)
    · exact word "null".toList (List.all_eq_true.mp (by decide)) (by decide)
  | str s => exact ⟨'"', _, toList_quote s, rfl⟩
  | arr xs =>
    refine ⟨'[', ((",".intercalate (Js.elems xs)) ++ "]").toList, ?_, rfl⟩
    simp only [text, Js.stringify, Option.getD_some, String.toList_append, List.append_assoc]
    rfl
  | obj fields =>
    refine ⟨'\x7b', ((",".intercalate (Js.members fields)) ++ "\x7d").toList, ?_, rfl⟩
    simp only [text, Js.stringify, Option.getD_some, String.toList_append, List.append_assoc]
    rfl

theorem not_blank_of_other {c : Char} (plain : isOther c = false) :
    isBlank c = false ∧ c ≠ ']' ∧ c ≠ '\x7d' := by
  simp only [isOther, Bool.or_eq_false_iff, decide_eq_false_iff_not] at plain
  exact ⟨plain.1.1, plain.1.2, plain.2⟩

/-- An array that is not empty. -/
theorem value_array {n : Nat} {cs : List Char}
    (start : ∃ c rest, cs = c :: rest ∧ isOther c = false) :
    value (n + 1) ('[' :: cs) = (elements n cs).map fun (xs, rest) => (.arr xs, rest) := by
  obtain ⟨c, rest, rfl, plain⟩ := start
  obtain ⟨blank, square, -⟩ := not_blank_of_other plain
  simp only [value, next?_cons _ (show isBlank '[' = false from rfl), Option.bind_eq_bind,
    Option.bind_some, Char.reduceEq, if_false, if_true, next?_cons _ blank]
  split
  · rename_i same
    exact absurd (Prod.mk.inj (Option.some.inj same)).1 square
  · rfl

/-- An object that is not empty. -/
theorem value_object {n : Nat} {cs : List Char} (start : ∃ rest, cs = '"' :: rest) :
    value (n + 1) ('\x7b' :: cs) =
      (members n cs).map fun (fields, rest) => (.obj fields, rest) := by
  obtain ⟨rest, rfl⟩ := start
  rfl

theorem value_string {n : Nat} (s : String) (rest : List Char) :
    value (n + 1) ((Js.quote s).toList ++ rest) = some (.str s, rest) := by
  rw [toList_quote, List.append_assoc]
  simp only [List.cons_append, List.nil_append, value,
    next?_cons _ (show isBlank '"' = false from rfl), Option.bind_eq_bind, Option.bind_some,
    if_true, string_quote, Option.map_some]

theorem ends_cons {c : Char} {rest : List Char} (stop : isWord c = false) : Ends (c :: rest) := by
  intro d head
  cases head
  exact stop

/-- The last element. -/
theorem elements_last {n : Nat} {cs rest : List Char} {x : Js}
    (read : value n cs = some (x, ']' :: rest)) : elements (n + 1) cs = some ([x], rest) := by
  simp only [elements, read, Option.bind_eq_bind, Option.bind_some,
    next?_cons rest (show isBlank ']' = false from rfl)]

/-- An element and the others. -/
theorem elements_more {n : Nat} {cs others rest : List Char} {x : Js} {xs : List Js}
    (read : value n cs = some (x, ',' :: others))
    (following : elements n others = some (xs, rest)) :
    elements (n + 1) cs = some (x :: xs, rest) := by
  simp only [elements, read, Option.bind_eq_bind, Option.bind_some, Option.map_some, following,
    next?_cons others (show isBlank ',' = false from rfl)]

/-- A name and its colon, in front of a value. -/
theorem members_named {n : Nat} {cs : List Char} {name : String} :
    members (n + 1) ((Js.quote name ++ ":").toList ++ cs) = (do
      let (x, rest) ← value n cs
      match ← next? rest with
      | (',', rest) => (members n rest).map fun (fields, rest) => (assign name x fields, rest)
      | ('\x7d', rest) => some ([(name, x)], rest)
      | _ => none) := by
  rw [String.toList_append, toList_quote]
  simp only [List.cons_append, List.append_assoc, List.nil_append, members, Option.bind_eq_bind,
    next?_cons _ (show isBlank '"' = false from rfl), Option.bind_some, string_quote,
    String.reduceToList, next?_cons _ (show isBlank ':' = false from rfl)]

theorem members_last {n : Nat} {cs rest : List Char} {name : String} {x : Js}
    (read : value n cs = some (x, '\x7d' :: rest)) :
    members (n + 1) ((Js.quote name ++ ":").toList ++ cs) = some ([(name, x)], rest) := by
  simp only [members_named, read, Option.bind_eq_bind, Option.bind_some,
    next?_cons rest (show isBlank '\x7d' = false from rfl)]

theorem members_more {n : Nat} {cs others rest : List Char} {name : String} {x : Js}
    {fields : List (String × Js)} (read : value n cs = some (x, ',' :: others))
    (following : members n others = some (fields, rest)) :
    members (n + 1) ((Js.quote name ++ ":").toList ++ cs) = some (assign name x fields, rest) := by
  simp only [members_named, read, Option.bind_eq_bind, Option.bind_some, Option.map_some, following,
    next?_cons others (show isBlank ',' = false from rfl)]

theorem decodedField_defined {name : String} {x : Js} (defined : x ≠ .undefined) :
    decodedField (name, x) = [(name, decoded x)] := by
  cases x <;> first | contradiction | rfl

theorem member_defined {name : String} {x : Js} (defined : x ≠ .undefined) :
    Js.member (name, x) = [Js.quote name ++ ":" ++ text x] := by
  cases x with
  | undefined => contradiction
  | bool b => cases b <;> rfl
  | null | num | str | arr | obj => rfl

theorem decodedFields_names (fields : List (String × Js)) :
    ((decodedFields fields).map Prod.fst).Sublist (fields.map Prod.fst) := by
  induction fields with
  | nil => exact .slnil
  | cons f fields ih =>
    obtain ⟨name, x⟩ := f
    rw [decodedFields, List.map_append, List.map_cons]
    by_cases defined : x = .undefined
    · subst defined
      exact ih.cons _
    · rw [decodedField_defined defined]
      exact ih.cons_cons _

theorem decodedFields_nil {fields : List (String × Js)} (blank : Js.members fields = []) :
    decodedFields fields = [] := by
  induction fields with
  | nil => rfl
  | cons f fields ih =>
    obtain ⟨name, x⟩ := f
    rw [Js.members, List.append_eq_nil_iff] at blank
    by_cases defined : x = .undefined
    · subst defined
      exact ih blank.2
    · rw [member_defined defined] at blank
      exact absurd blank.1 (List.cons_ne_nil _ _)

/-- A member whose name is new stays as it is. -/
theorem assign_new {name : String} {x : Js} {fields : List (String × Js)}
    (new : name ∉ fields.map Prod.fst) : assign name x fields = (name, x) :: fields := by
  have other : ∀ f ∈ fields, f.1 ≠ name := fun f member same =>
    new (same ▸ List.mem_map_of_mem member)
  have absent : fields.lookup name = none :=
    List.lookup_eq_none_iff.mpr fun f member => bne_iff_ne.mpr (other f member).symm
  have kept : fields.filter (·.1 ≠ name) = fields :=
    List.filter_eq_self.mpr fun f member => decide_eq_true (other f member)
  rw [assign, absent, kept, Option.getD_none]

theorem intercalate_elems (x y : Js) (xs : List Js) :
    (",".intercalate (Js.elems (x :: y :: xs))).toList =
      (text x).toList ++ ',' :: (",".intercalate (Js.elems (y :: xs))).toList := by
  rw [Js.elems, Js.elems, String.intercalate_cons_cons, String.toList_append, String.toList_append,
    List.append_assoc]
  rfl

theorem intercalate_members {f : String} {fields : List String} (others : fields ≠ []) :
    (",".intercalate (f :: fields)).toList =
      f.toList ++ ',' :: (",".intercalate fields).toList := by
  rw [String.intercalate_cons_of_ne_nil others, String.toList_append, String.toList_append,
    List.append_assoc]
  rfl

theorem toList_member (name : String) (x : Js) :
    (Js.quote name ++ ":" ++ text x).toList =
      (Js.quote name ++ ":").toList ++ (text x).toList := String.toList_append

/-- The members of an object start with a quote. -/
theorem members_start {fields : List (String × Js)} (filled : Js.members fields ≠ []) :
    ∃ rest, (",".intercalate (Js.members fields)).toList = '"' :: rest := by
  induction fields with
  | nil => exact absurd rfl filled
  | cons f fields ih =>
    obtain ⟨name, x⟩ := f
    by_cases defined : x = .undefined
    · subst defined
      exact ih filled
    · rw [Js.members, member_defined defined, List.singleton_append]
      by_cases blank : Js.members fields = []
      · rw [blank, String.intercalate_singleton, toList_member, String.toList_append, toList_quote]
        exact ⟨_, rfl⟩
      · rw [intercalate_members blank, toList_member, String.toList_append, toList_quote]
        exact ⟨_, rfl⟩

/-- `value` reads what has been written, with as many steps as that has characters. -/
def Reads (v : Js) : Prop :=
  isValue v = true → ∀ {n rest}, (text v).toList.length ≤ n → Ends rest →
    value n ((text v).toList ++ rest) = some (decoded v, rest)

def ReadsElems : List Js → Prop
  | [] => True
  | x :: xs => areValues (x :: xs) = true → ∀ {n rest},
    (",".intercalate (Js.elems (x :: xs))).toList.length < n →
    elements n ((",".intercalate (Js.elems (x :: xs))).toList ++ ']' :: rest) =
      some (decodedElems (x :: xs), rest)

def ReadsFields (fields : List (String × Js)) : Prop :=
  haveValues fields = true → (fields.map Prod.fst).Nodup → Js.members fields ≠ [] → ∀ {n rest},
    (",".intercalate (Js.members fields)).toList.length < n →
    members n ((",".intercalate (Js.members fields)).toList ++ '\x7d' :: rest) =
      some (decodedFields fields, rest)

theorem reads_word {v : Js} (cs : List Char) (written : (text v).toList = cs)
    (read : word cs = some (decoded v)) (inside : ∀ c ∈ cs, isWord c = true) (filled : cs ≠ []) :
    Reads v := by
  intro _ n rest fuel ends
  have some : 0 < cs.length := List.length_pos_iff.mpr filled
  rw [written] at fuel ⊢
  obtain ⟨n, rfl⟩ := Nat.exists_eq_succ_of_ne_zero (show n ≠ 0 by omega)
  exact value_word read inside filled ends

theorem reads_num (number : String) : Reads (.num number) := by
  intro genuine
  by_cases finite : Js.isFinite number = true
  · simp only [isValue, finite, Bool.not_true, Bool.false_or] at genuine
    have read := word_number genuine
    rw [String.ofList_toList] at read
    refine reads_word number.toList ?_ ?_ (isWord_number genuine) (number_ne_nil genuine) ?_
    · simp only [text, Js.stringify, finite, if_true, Option.getD_some]
    · simp only [decoded, finite, if_true, read]
    · simp only [isValue, genuine, Bool.or_true]
  · refine reads_word "null".toList ?_ ?_ (List.all_eq_true.mp (by decide)) (by decide) genuine
    · simp only [text, Js.stringify, finite, if_false, Option.getD_some, Bool.false_eq_true]
    · simp only [decoded, finite, if_false, Bool.false_eq_true]
      rfl

theorem reads_arr {xs : List Js} (inner : ReadsElems xs) : Reads (.arr xs) := by
  intro genuine n rest fuel ends
  cases xs with
  | nil =>
    obtain ⟨n, rfl⟩ := Nat.exists_eq_succ_of_ne_zero (Nat.ne_zero_of_lt fuel)
    rfl
  | cons x xs =>
    obtain ⟨c, front, start, plain⟩ := text_head ((Bool.and_eq_true _ _).mp genuine).1
    have written : (text (.arr (x :: xs))).toList =
        '[' :: ((",".intercalate (Js.elems (x :: xs))).toList ++ [']']) := by
      simp only [text, Js.stringify, Option.getD_some, String.toList_append]
      rfl
    have first : ∃ rest', (",".intercalate (Js.elems (x :: xs))).toList ++ ']' :: rest =
        c :: rest' := by
      cases xs with
      | nil =>
        rw [Js.elems, Js.elems, String.intercalate_singleton]
        exact ⟨front ++ ']' :: rest, congrArg (· ++ _) start⟩
      | cons y ys =>
        rw [intercalate_elems, start]
        exact ⟨_, rfl⟩
    obtain ⟨rest', first⟩ := first
    rw [written, List.length_cons, List.length_append] at fuel
    obtain ⟨n, rfl⟩ := Nat.exists_eq_succ_of_ne_zero (Nat.ne_zero_of_lt fuel)
    rw [written, List.cons_append, List.append_assoc, List.singleton_append,
      value_array ⟨c, rest', first, plain⟩, inner genuine (Nat.le_of_succ_le_succ fuel)]
    rfl

theorem reads_obj {fields : List (String × Js)} (inner : ReadsFields fields) :
    Reads (.obj fields) := by
  intro genuine n rest fuel ends
  simp only [isValue, Bool.and_eq_true, decide_eq_true_eq] at genuine
  have written : (text (.obj fields)).toList =
      '\x7b' :: ((",".intercalate (Js.members fields)).toList ++ ['\x7d']) := by
    simp only [text, Js.stringify, Option.getD_some, String.toList_append]
    rfl
  rw [written, List.length_cons, List.length_append] at fuel
  obtain ⟨n, rfl⟩ := Nat.exists_eq_succ_of_ne_zero (Nat.ne_zero_of_lt fuel)
  rw [written, List.cons_append, List.append_assoc, List.singleton_append]
  by_cases blank : Js.members fields = []
  · rw [blank, decoded, decodedFields_nil blank]
    rfl
  · have start : ∃ rest', (",".intercalate (Js.members fields)).toList ++ '\x7d' :: rest =
        '"' :: rest' := by
      obtain ⟨rest', start⟩ := members_start blank
      exact ⟨rest' ++ '\x7d' :: rest, congrArg (· ++ _) start⟩
    rw [value_object start, inner genuine.2 genuine.1 blank (Nat.le_of_succ_le_succ fuel)]
    rfl

theorem readsElems_cons {x : Js} {xs : List Js} (first : Reads x) (others : ReadsElems xs) :
    ReadsElems (x :: xs) := by
  intro genuine n rest fuel
  obtain ⟨own, genuines⟩ := (Bool.and_eq_true _ _).mp genuine
  obtain ⟨n, rfl⟩ := Nat.exists_eq_succ_of_ne_zero (Nat.ne_zero_of_lt fuel)
  cases xs with
  | nil =>
    simp only [Js.elems, String.intercalate_singleton] at fuel ⊢
    exact elements_last (first own (Nat.le_of_lt_succ fuel) (ends_cons rfl))
  | cons y ys =>
    rw [intercalate_elems, List.length_append, List.length_cons] at fuel
    rw [intercalate_elems, List.append_assoc, List.cons_append]
    exact elements_more (first own (by omega) (ends_cons rfl)) (others genuines (by omega))

theorem readsFields_cons {name : String} {x : Js} {fields : List (String × Js)} (first : Reads x)
    (others : ReadsFields fields) : ReadsFields ((name, x) :: fields) := by
  intro genuine distinct filled n rest fuel
  obtain ⟨own, genuines⟩ := (Bool.and_eq_true _ _).mp genuine
  obtain ⟨new, unique⟩ := List.nodup_cons.mp distinct
  by_cases defined : x = .undefined
  · subst defined
    exact others genuines unique filled fuel
  obtain ⟨n, rfl⟩ := Nat.exists_eq_succ_of_ne_zero (Nat.ne_zero_of_lt fuel)
  rw [Js.members, member_defined defined, List.singleton_append] at fuel ⊢
  rw [decodedFields, decodedField_defined defined, List.singleton_append]
  by_cases blank : Js.members fields = []
  · rw [blank, String.intercalate_singleton, toList_member, List.length_append] at fuel
    rw [blank, String.intercalate_singleton, toList_member, List.append_assoc,
      decodedFields_nil blank]
    exact members_last (first own (by omega) (ends_cons rfl))
  · rw [intercalate_members blank, toList_member, List.length_append, List.length_append,
      List.length_cons] at fuel
    rw [intercalate_members blank, toList_member, List.append_assoc, List.append_assoc,
      List.cons_append, ← assign_new fun member => new ((decodedFields_names fields).mem member)]
    exact members_more (first own (by omega) (ends_cons rfl))
      (others genuines unique blank (by omega))

theorem reads (v : Js) : Reads v := by
  refine @Js.rec Reads ReadsElems ReadsFields (fun f => Reads f.2)
    ?_ ?_ ?_ ?_ ?_ ?_ ?_ ?_ ?_ ?_ ?_ ?_ v
  · exact reads_word "null".toList rfl rfl (List.all_eq_true.mp (by decide)) (by decide)
  · exact reads_word "null".toList rfl rfl (List.all_eq_true.mp (by decide)) (by decide)
  · intro b
    cases b
    · exact reads_word "false".toList rfl rfl (List.all_eq_true.mp (by decide)) (by decide)
    · exact reads_word "true".toList rfl rfl (List.all_eq_true.mp (by decide)) (by decide)
  · exact reads_num
  · intro s _ n rest fuel _
    obtain ⟨n, rfl⟩ := Nat.exists_eq_succ_of_ne_zero (show n ≠ 0 by
      have filled : (text (.str s)).toList.length ≠ 0 := by
        rw [show text (.str s) = Js.quote s from rfl, toList_quote]
        exact Nat.succ_ne_zero _
      omega)
    exact value_string s rest
  · exact fun xs => reads_arr
  · exact fun fields => reads_obj
  · trivial
  · exact fun x xs => readsElems_cons
  · exact fun _ _ filled => absurd rfl filled
  · exact fun f fields => readsFields_cons
  · exact fun name x => id

/-- What `JSON.stringify` has written, `JSON.parse` reads. -/
theorem parse_stringify {v : Js} {written : String} (genuine : isValue v = true)
    (stringified : v.stringify = some written) : parse written = some (decoded v) := by
  have same : text v = written := by rw [text, stringified, Option.getD_some]
  subst same
  have ends : Ends [] := nofun
  have read := reads v genuine (Nat.le_succ _) ends
  rw [List.append_nil] at read
  rw [parse, read]
  rfl

/-- A member with a value is read as it is decoded. -/
theorem get_decodedFields {fields : List (String × Js)} {name : String} {x : Js}
    (distinct : (fields.map Prod.fst).Nodup) (member : (Js.obj fields).get name = x)
    (defined : x ≠ .undefined) : (Js.obj (decodedFields fields)).get name = decoded x := by
  induction fields with
  | nil => exact absurd member.symm defined
  | cons f fields ih =>
    obtain ⟨name', x'⟩ := f
    obtain ⟨new, unique⟩ := List.nodup_cons.mp distinct
    by_cases same : name = name'
    · subst same
      simp only [Js.get, List.lookup_cons_self, Option.getD_some] at member
      subst member
      simp only [Js.get, decodedFields, decodedField_defined defined, List.singleton_append,
        List.lookup_cons_self, Option.getD_some]
    · have other : (name == name') = false := beq_false_of_ne same
      simp only [Js.get, List.lookup_cons, other] at member
      have ih := ih unique member
      by_cases absent : x' = .undefined
      · subst absent
        exact ih
      · simp only [Js.get, decodedFields, decodedField_defined absent, List.singleton_append,
          List.lookup_cons, other]
        exact ih

end Values

section Counts

theorem isDigit_of_mem_toString {n : Nat} {c : Char}
    (member : c ∈ (toString n).toList) : c.isDigit := by
  have member : c ∈ Nat.toDigits 10 n := by
    rw [← String.toList_ofList (l := Nat.toDigits 10 n)]
    exact member
  exact Nat.isDigit_of_mem_toDigits (by decide) (by decide) member

theorem digitChar_head : ∀ n < 10, 0 < n → n.digitChar ≠ '0' := by decide

/-- A number does not start with a zero that could be left out. -/
theorem toDigits_head {n : Nat} (positive : 0 < n) :
    ∃ c rest, Nat.toDigits 10 n = c :: rest ∧ c ≠ '0' := by
  induction n using Nat.strong_induction_on with
  | _ n ih =>
    by_cases small : n < 10
    · rw [Nat.toDigits_of_lt_base small]
      exact ⟨_, [], rfl, digitChar_head n small positive⟩
    · obtain ⟨c, rest, digits, other⟩ := ih (n / 10) (by omega) (by omega)
      rw [Nat.toDigits_of_base_le (by decide) (by omega), digits]
      exact ⟨c, _, rfl, other⟩

theorem isNumber_toString (n : Nat) : isNumber (toString n).toList = true := by
  by_cases zero : n = 0
  · subst zero
    decide
  obtain ⟨c, rest, digits, other⟩ := toDigits_head (Nat.pos_of_ne_zero zero)
  have written : (toString n).toList = c :: rest := by
    rw [← digits]
    exact String.toList_ofList
  have all : ∀ d ∈ c :: rest, d.isDigit = true := fun d member =>
    isDigit_of_mem_toString (written ▸ member)
  have dropped : rest.dropWhile Char.isDigit = [] :=
    List.dropWhile_eq_nil_iff.mpr fun d member => all d (List.mem_cons_of_mem _ member)
  have digit := all c List.mem_cons_self
  rw [written, isNumber, isUnsigned, digit, dropped]
  · rfl
  · exact fun same => other same
  · intro _ same
    cases same
    contradiction

theorem isFinite_of_isNumber {text : String} (number : isNumber text.toList = true) :
    Js.isFinite text = true := by
  refine decide_eq_true fun member => ?_
  simp only [List.mem_cons, List.not_mem_nil, or_false] at member
  rcases member with rfl | rfl | rfl <;> exact absurd number (by decide)

theorem isFinite_toString (n : Nat) : Js.isFinite (toString n) = true :=
  isFinite_of_isNumber (isNumber_toString n)

end Counts

end CorePlatform.JSON
