import CorePlatform.Common.Rewriting

/-! Reading of HTML: the tags of a page with the source of their attribute values, and the
character references in it. A script is the only raw text. -/
namespace Html
open Rewriting

/-- A tag with its attributes, the values as the page writes them. -/
structure Tag where
  closing : Bool
  name : List Char
  attributes : List (List Char × List Char)
  deriving DecidableEq

inductive Token where
  | text (cs : List Char)
  | tag (t : Tag)
  | declaration (cs : List Char)
  deriving DecidableEq

/-- Where the reader stands. What is being read is kept with its last character first. -/
inductive State where
  | data (cs : List Char)
  | script (cs : List Char)
  | tagOpen
  | endTagOpen
  | declaration (cs : List Char)
  | tagName (closing : Bool) (name : List Char)
  | beforeAttributeName (t : Tag)
  | attributeName (t : Tag) (name : List Char)
  | afterAttributeName (t : Tag) (name : List Char)
  | beforeAttributeValue (t : Tag) (name : List Char)
  | attributeValue (t : Tag) (name : List Char) (quote : Char) (value : List Char)
  | unquotedValue (t : Tag) (name : List Char) (value : List Char)
  | afterAttributeValue (t : Tag)
  deriving DecidableEq

def isSpace (c : Char) : Bool := c = ' ' || c = '\t' || c = '\n' || c = '\x0c'

/-- A second attribute of one name is dropped. -/
def Tag.attribute (t : Tag) (name value : List Char) : Tag :=
  if t.attributes.any (·.1 = name) then t
  else { t with attributes := t.attributes ++ [(name, value)] }

/-- After a tag comes text, and raw text after that of a script. -/
def Tag.follow (t : Tag) : State :=
  if t.closing = false ∧ t.name = "script".toList then .script [] else .data []

def texts (cs : List Char) : List Token := if cs = [] then [] else [.text cs.reverse]

/-- One character: the tokens that it completes, and where the reader stands then. -/
def step (c : Char) : State → List Token × State
  | .data cs => if c = '<' then (texts cs, .tagOpen) else ([], .data (c :: cs))
  | .script cs =>
    if (isSpace c || c = '/' || c = '>') ∧ "tpircs/<".toList <+: cs.map Char.toLower then
      let before := texts (cs.drop 8)
      if c = '>' then (before ++ [.tag ⟨true, "script".toList, []⟩], .data [])
      else (before, .beforeAttributeName ⟨true, "script".toList, []⟩)
    else ([], .script (c :: cs))
  | .tagOpen =>
    if c = '!' || c = '?' then ([], .declaration [])
    else if c = '/' then ([], .endTagOpen)
    else if c.isAlpha then ([], .tagName false [c.toLower])
    else if c = '<' then ([.text ['<']], .tagOpen)
    else ([], .data [c, '<'])
  | .endTagOpen =>
    if c.isAlpha then ([], .tagName true [c.toLower])
    else if c = '>' then ([], .data [])
    else ([], .declaration [c])
  | .declaration cs =>
    -- A comment is closed by two hyphens, an exclamation mark behind them or not.
    if c = '>' ∧ (['-', '-'] <:+ cs → ['-', '-'] <+: cs ∨ ['!', '-', '-'] <+: cs) then
      ([.declaration cs.reverse], .data [])
    else ([], .declaration (c :: cs))
  | .tagName closing name =>
    let t : Tag := ⟨closing, name.reverse, []⟩
    if isSpace c || c = '/' then ([], .beforeAttributeName t)
    else if c = '>' then ([.tag t], t.follow)
    else ([], .tagName closing (c.toLower :: name))
  | .beforeAttributeName t =>
    if isSpace c || c = '/' then ([], .beforeAttributeName t)
    else if c = '>' then ([.tag t], t.follow)
    else ([], .attributeName t [c.toLower])
  | .attributeName t name =>
    if isSpace c then ([], .afterAttributeName t name)
    else if c = '/' then ([], .beforeAttributeName (t.attribute name.reverse []))
    else if c = '=' then ([], .beforeAttributeValue t name)
    else if c = '>' then
      ([.tag (t.attribute name.reverse [])], (t.attribute name.reverse []).follow)
    else ([], .attributeName t (c.toLower :: name))
  | .afterAttributeName t name =>
    if isSpace c then ([], .afterAttributeName t name)
    else if c = '/' then ([], .beforeAttributeName (t.attribute name.reverse []))
    else if c = '=' then ([], .beforeAttributeValue t name)
    else if c = '>' then
      ([.tag (t.attribute name.reverse [])], (t.attribute name.reverse []).follow)
    else ([], .attributeName (t.attribute name.reverse []) [c.toLower])
  | .beforeAttributeValue t name =>
    if isSpace c then ([], .beforeAttributeValue t name)
    else if c = '"' || c = '\x27' then ([], .attributeValue t name c [])
    else if c = '>' then
      ([.tag (t.attribute name.reverse [])], (t.attribute name.reverse []).follow)
    else ([], .unquotedValue t name [c])
  | .attributeValue t name quote value =>
    if c = quote then ([], .afterAttributeValue (t.attribute name.reverse value.reverse))
    else ([], .attributeValue t name quote (c :: value))
  | .unquotedValue t name value =>
    let read := t.attribute name.reverse value.reverse
    if isSpace c then ([], .beforeAttributeName read)
    else if c = '>' then ([.tag read], read.follow)
    else ([], .unquotedValue t name (c :: value))
  | .afterAttributeValue t =>
    if isSpace c || c = '/' then ([], .beforeAttributeName t)
    else if c = '>' then ([.tag t], t.follow)
    else ([], .attributeName t [c.toLower])

/-- The tokens of a text from a state on, and the state behind it. What a browser does to the text
beforehand is taken as done: a CR has become a newline, and NUL its replacement. -/
def read : State → List Char → List Token × State
  | s, [] => ([], s)
  | s, c :: cs =>
    let out := read (step c s).2 cs
    ((step c s).1 ++ out.1, out.2)

/-- What is left at the end: text, if there is any. -/
def finish : State → List Token
  | .data cs | .script cs => texts cs
  | .tagOpen => [.text ['<']]
  | _ => []

def tokens (page : String) : List Token :=
  let out := read (.data []) page.toList
  out.1 ++ finish out.2

example : tokens "<p a='1' b>x &amp; y</p>" =
    [.tag ⟨false, ['p'], [(['a'], ['1']), (['b'], [])]⟩, .text "x &amp; y".toList,
      .tag ⟨true, ['p'], []⟩] := by decide +kernel

theorem read_append (s : State) (front back : List Char) :
    read s (front ++ back) = ((read s front).1 ++ (read (read s front).2 back).1,
      (read (read s front).2 back).2) := by
  induction front generalizing s with
  | nil => rfl
  | cons c front ih => simp only [List.cons_append, read, ih, List.append_assoc]

theorem read_then {s t u : State} {before after : String} {first later : List Token}
    (head : read s before.toList = (first, t)) (tail : read t after.toList = (later, u)) :
    read s (before ++ after).toList = (first ++ later, u) := by
  rw [String.toList_append, read_append, head, tail]

/-- A quoted value goes on to the next quote. -/
theorem read_attributeValue (t : Tag) (name : List Char) {quote : Char} (before : List Char)
    {value : List Char} (inside : quote ∉ value) :
    read (.attributeValue t name quote before) value =
      ([], .attributeValue t name quote (value.reverse ++ before)) := by
  induction value generalizing before with
  | nil => rfl
  | cons c value ih =>
    obtain ⟨other, later⟩ := not_or.mp (List.mem_cons.not.mp inside)
    have stays : step c (.attributeValue t name quote before) =
        ([], .attributeValue t name quote (c :: before)) := if_neg (Ne.symm other)
    rw [read, stays, ih _ later, List.reverse_cons, List.append_assoc, List.singleton_append,
      List.nil_append]

/-- Character references of a table: `decode` reads from left to right, leaves what is no ampersand
and puts its character for each of the references. -/
structure References (table : List (Char × List Char)) where
  decode : List Char → List Char
  nil : decode [] = []
  plain : ∀ c cs, c ≠ '&' → decode (c :: cs) = c :: decode cs
  reference : ∀ entry ∈ table, ∀ cs, decode (entry.2 ++ cs) = entry.1 :: decode cs

section Decoding

variable {table : List (Char × List Char)}

/-- A character by its reference, any other as it is. -/
theorem mem_of_substitute (table : List (Char × List Char)) (c : Char) :
    (c, substitute table c) ∈ table ∨
      (∀ entry ∈ table, entry.1 ≠ c) ∧ substitute table c = [c] := by
  cases found : table.lookup c with
  | some text =>
    left
    rw [substitute, found]
    obtain ⟨before, after, rfl, -⟩ := List.lookup_eq_some_iff.mp found
    exact List.mem_append_right before List.mem_cons_self
  | none =>
    have other : ∀ entry ∈ table, entry.1 ≠ c := fun entry member same =>
      bne_iff_ne.mp (List.lookup_eq_none_iff.mp found entry member) same.symm
    exact .inr ⟨other, substitute_other other⟩

/-- What has every ampersand replaced is decoded to what it was. -/
theorem References.decode_substitute (R : References table) (escaped : '&' ∈ table.map Prod.fst)
    (cs : List Char) : R.decode (cs.flatMap (substitute table)) = cs := by
  induction cs with
  | nil => exact R.nil
  | cons c cs ih =>
    rw [List.flatMap_cons]
    rcases mem_of_substitute table c with member | ⟨other, same⟩
    · rw [R.reference _ member, ih]
    · have plain : c ≠ '&' := by
        rintro rfl
        obtain ⟨entry, member, same⟩ := List.mem_map.mp escaped
        exact other entry member same
      rw [same, List.singleton_append, R.plain _ _ plain, ih]

/-- Every ampersand that is left begins one of the references. -/
theorem ampersand_substitute (bracketed : ∀ entry ∈ table, Bracketed '&' ';' entry.2)
    (escaped : '&' ∈ table.map Prod.fst) {cs before after : List Char}
    (occurs : cs.flatMap (substitute table) = before ++ '&' :: after) :
    ∃ entry ∈ table, entry.2 <+: '&' :: after := by
  induction cs generalizing before with
  | nil => exact absurd occurs (by simp)
  | cons c cs ih =>
    rw [List.flatMap_cons] at occurs
    rcases List.append_eq_append_iff.mp occurs with ⟨more, rfl, later⟩ | ⟨more, inside, later⟩
    · exact ih later
    · cases more with
      | nil => exact @ih [] later.symm
      | cons d more =>
        obtain ⟨rfl, rest⟩ := List.cons.inj later
        rcases mem_of_substitute table c with member | ⟨other, same⟩
        · obtain ⟨name, text, opened, -⟩ := bracketed _ member
          dsimp only at text
          rw [text] at inside
          cases before with
          | nil =>
            refine ⟨_, member, ?_⟩
            rw [text, inside, rest]
            exact ⟨_, rfl⟩
          | cons e before =>
            -- A reference holds one ampersand, in front.
            have tail : name ++ [';'] = before ++ '&' :: more := (List.cons.inj inside).2
            have found : '&' ∈ name ++ [';'] :=
              tail ▸ List.mem_append_right before List.mem_cons_self
            exact absurd found (by simp [opened])
        · rw [same] at inside
          have plain : c = '&' := by
            cases before with
            | nil => exact (List.cons.inj inside).1
            | cons e before => exact absurd (List.cons.inj inside).2 (by simp)
          obtain ⟨entry, member, key⟩ := List.mem_map.mp escaped
          exact absurd (key.trans plain.symm) (other entry member)

/-- The references of a table put back by rewriting. -/
def rules (table : List (Char × List Char)) : List (Rule Char) :=
  table.map fun entry => ⟨entry.2, [entry.1]⟩

/-- Rewriting reads references that begin with an ampersand and end with a semicolon. -/
def References.rewriting (bracketed : ∀ entry ∈ table, Bracketed '&' ';' entry.2)
    (distinct : (table.map Prod.snd).Nodup) : References table where
  decode := rewrite (rules table)
  nil := rfl
  plain := by
    intro c cs other
    have missing : longest (rules table) (c :: cs) = none := by
      refine longest_eq_none.mpr fun s member front => ?_
      obtain ⟨entry, listed, rfl⟩ := List.mem_map.mp member
      obtain ⟨name, left, -⟩ := bracketed entry listed
      obtain ⟨rest, split⟩ := front
      rw [left] at split
      exact other (List.cons.inj split).1.symm
    rw [rewrite, pieces_literal missing]
    rfl
  reference := by
    intro entry listed cs
    have filled : entry.2 ≠ [] := by
      obtain ⟨name, left, -⟩ := bracketed entry listed
      exact left ▸ List.cons_ne_nil _ _
    have found : longest (rules table) (entry.2 ++ cs) = some ⟨entry.2, [entry.1]⟩ := by
      refine longest_eq (List.mem_map.mpr ⟨entry, listed, rfl⟩) (List.prefix_append _ _) ?_
      rintro s member ⟨rest, split⟩
      obtain ⟨other, listed', rfl⟩ := List.mem_map.mp member
      have same := (bracketed other listed').eq_of_front (bracketed entry listed) split
      rw [List.inj_on_of_nodup_map distinct listed' listed same]
      exact .inl rfl
    rw [rewrite]
    exact congrArg Rewriting.filled 
      (pieces_hole (r := ⟨entry.2, [entry.1]⟩) filled found)

theorem rewrite_substitute (bracketed : ∀ entry ∈ table, Bracketed '&' ';' entry.2)
    (distinct : (table.map Prod.snd).Nodup) (escaped : '&' ∈ table.map Prod.fst)
    (cs : List Char) : rewrite (rules table) (cs.flatMap (substitute table)) = cs :=
  (References.rewriting bracketed distinct).decode_substitute escaped cs

end Decoding

end Html
