import CorePlatform.Common.Html

/-! `escapeHtmlAttr`, and the page of `confirmPage` as a reader of HTML takes it. -/
namespace CorePlatform.Auth
open Html Rewriting

/-- `s.replace(/c/g, text)` -/
def replaceAll (c : Char) (text s : String) : String :=
  String.ofList (s.toList.flatMap fun d => if d = c then text.toList else [d])

theorem toList_replaceAll (c : Char) (text s : String) : (replaceAll c text s).toList =
    s.toList.flatMap fun d => if d = c then text.toList else [d] := String.toList_ofList

def escapeHtmlAttr (s : String) : String :=
  s |> replaceAll '&' "&amp;"
    |> replaceAll '"' "&quot;"
    |> replaceAll '\x27' "&#39;"
    |> replaceAll '<' "&lt;"
    |> replaceAll '>' "&gt;"

/-- The page up to the first value, between the two values, and behind the second. -/
def pageStart : String :=
  "<!DOCTYPE html><html><head><meta charset=\"utf-8\">" ++
    "<title>Verifying...</title></head><body>" ++
    "<p>Verifying your email...</p>" ++
    "<form id=\"f\" method=\"POST\" action=\"/auth/register/verify\">" ++
    "<input type=\"hidden\" name=\"email\" value=\""

def pageBetween : String := "\"><input type=\"hidden\" name=\"code\" value=\""

def pageEnd : String :=
  "\"></form><script>document.getElementById('f').submit();</script></body></html>"

def verifyConfirmHtml (email code : String) : String :=
  let e := escapeHtmlAttr email
  let c := escapeHtmlAttr code
  pageStart ++ e ++ pageBetween ++ c ++ pageEnd

/-- The handler on a query, whose fields may be missing. -/
def AuthController.confirmPage (email code : Option String) : String :=
  verifyConfirmHtml (email.getD "") (code.getD "")

/-- The characters that are replaced, in the order of their replacement. -/
def entities : List (Char × List Char) :=
  [('&', "&amp;".toList), ('"', "&quot;".toList), ('\x27', "&#39;".toList),
    ('<', "&lt;".toList), ('>', "&gt;".toList)]

theorem entities_fresh : entities.Pairwise fun first later => later.1 ∉ first.2 := by
  decide +kernel

theorem entities_bracketed : ∀ entry ∈ entities, Bracketed '&' ';' entry.2 := by
  intro entry member
  simp only [entities, List.mem_cons, List.not_mem_nil, or_false] at member
  rcases member with rfl | rfl | rfl | rfl | rfl
  · exact ⟨"amp".toList, by decide +kernel⟩
  · exact ⟨"quot".toList, by decide +kernel⟩
  · exact ⟨"#39".toList, by decide +kernel⟩
  · exact ⟨"lt".toList, by decide +kernel⟩
  · exact ⟨"gt".toList, by decide +kernel⟩

theorem entities_distinct : (entities.map Prod.snd).Nodup := by decide +kernel

theorem entities_escaped : '&' ∈ entities.map Prod.fst := by decide

/-- One character after the other, or all at once. -/
theorem escapeHtmlAttr_eq (s : String) :
    (escapeHtmlAttr s).toList = s.toList.flatMap (substitute entities) := by
  rw [← replaceEach_eq entities_fresh]
  simp only [escapeHtmlAttr, toList_replaceAll, entities, replaceEach_cons, replaceEach_nil]

theorem not_mem_escapeHtmlAttr (s : String) {c : Char} (special : c ∈ ['"', '\x27', '<', '>']) :
    c ∉ (escapeHtmlAttr s).toList := by
  rw [escapeHtmlAttr_eq, List.mem_flatMap]
  rintro ⟨d, -, inside⟩
  rcases mem_of_substitute entities d with member | ⟨other, same⟩
  · have table : entities.all fun entry => ['"', '\x27', '<', '>'].all (· ∉ entry.2) := by
      decide +kernel
    have plain := List.all_eq_true.mp (List.all_eq_true.mp table _ member) c special
    exact of_decide_eq_true plain inside
  · rw [same] at inside
    obtain rfl := List.mem_singleton.mp inside
    have keys : ['"', '\x27', '<', '>'] ⊆ entities.map Prod.fst := List.subset_cons_self _ _
    obtain ⟨entry, member, key⟩ := List.mem_map.mp (keys special)
    exact other entry member key

def opening (name : String) (attributes : List (String × List Char)) : Html.Token :=
  .tag ⟨false, name.toList, attributes.map fun entry => (entry.1.toList, entry.2)⟩

def closing (name : String) : Html.Token := .tag ⟨true, name.toList, []⟩

def hidden (name : String) (value : List Char) : Html.Token :=
  opening "input" [("type", "hidden".toList), ("name", name.toList), ("value", value)]

/-- What stands in front of the first value. -/
def front : List Html.Token :=
  [.declaration "DOCTYPE html".toList, opening "html" [], opening "head" [],
    opening "meta" [("charset", "utf-8".toList)], opening "title" [],
    .text "Verifying...".toList, closing "title", closing "head", opening "body" [],
    opening "p" [], .text "Verifying your email...".toList, closing "p",
    opening "form" [("id", ['f']), ("method", "POST".toList),
      ("action", "/auth/register/verify".toList)]]

/-- What stands behind the second value. -/
def back : List Html.Token :=
  [closing "form", opening "script" [], .text "document.getElementById('f').submit();".toList,
    closing "script", closing "body", closing "html"]

/-- The page with the sources of its two values. -/
def markup (email code : List Char) : List Html.Token :=
  front ++ [hidden "email" email, hidden "code" code] ++ back

/-- The reader inside of the value of a hidden field. -/
def insideValue (name : String) (value : List Char) : State :=
  .attributeValue ⟨false, "input".toList, [("type".toList, "hidden".toList),
    ("name".toList, name.toList)]⟩ "value".toList.reverse '"' value

theorem read_pageStart : read (.data []) pageStart.toList = (front, insideValue "email" []) := by
  have head : read (.data []) ("<!DOCTYPE html><html><head><meta charset=\"utf-8\">" ++
      "<title>Verifying...</title></head><body>").toList = (front.take 9, .data []) := by
    decide +kernel
  have paragraph : read (.data []) "<p>Verifying your email...</p>".toList =
      ((front.drop 9).take 3, .data []) := by decide +kernel
  have form : read (.data [])
      "<form id=\"f\" method=\"POST\" action=\"/auth/register/verify\">".toList =
        ((front.drop 9).drop 3, .data []) := by decide +kernel
  have field : read (.data []) "<input type=\"hidden\" name=\"email\" value=\"".toList =
      ([], insideValue "email" []) := by decide +kernel
  have whole := read_then (read_then (read_then head paragraph) form) field
  rw [List.append_nil, List.append_assoc, List.take_append_drop, List.take_append_drop] at whole
  exact whole

theorem read_value (name : String) (s : String) :
    read (insideValue name []) (escapeHtmlAttr s).toList =
      ([], insideValue name (escapeHtmlAttr s).toList.reverse) := by
  have quote := not_mem_escapeHtmlAttr s (by decide : '"' ∈ ['"', '\x27', '<', '>'])
  have value := read_attributeValue ⟨false, "input".toList, [("type".toList, "hidden".toList),
    ("name".toList, name.toList)]⟩ "value".toList.reverse [] quote
  rw [List.append_nil] at value
  exact value

/-- The quote that follows a value ends it. -/
theorem read_close (name : String) (value rest : List Char) :
    read (insideValue name value) ('"' :: '>' :: rest) =
      (hidden name value.reverse :: (read (.data []) rest).1, (read (.data []) rest).2) := by
  have first : "type".toList ≠ "value".toList := by decide +kernel
  have second : "name".toList ≠ "value".toList := by decide +kernel
  have other : "input".toList ≠ "script".toList := by decide +kernel
  simp only [Html.read, step, insideValue, Tag.attribute, Tag.follow, if_true, List.reverse_reverse,
    List.any_cons, List.any_nil, first, second, other, decide_false, Bool.or_false,
    Bool.false_eq_true, if_false, and_false]
  rfl

theorem read_pageBetween (value : List Char) :
    read (insideValue "email" value) pageBetween.toList =
      ([hidden "email" value.reverse], insideValue "code" []) := by
  have split : pageBetween.toList =
      '"' :: '>' :: "<input type=\"hidden\" name=\"code\" value=\"".toList := by decide +kernel
  have rest : read (.data []) "<input type=\"hidden\" name=\"code\" value=\"".toList =
      ([], insideValue "code" []) := by decide +kernel
  rw [split, read_close, rest]

theorem read_pageEnd (value : List Char) :
    read (insideValue "code" value) pageEnd.toList =
      (hidden "code" value.reverse :: back, .data []) := by
  have split : pageEnd.toList = '"' :: '>' :: ("</form>" ++
      "<script>document.getElementById('f').submit();</script></body></html>").toList := by
    decide +kernel
  have rest : read (.data []) ("</form>" ++
      "<script>document.getElementById('f').submit();</script></body></html>").toList =
        (back, .data []) := by decide +kernel
  rw [split, read_close, rest]

/-- The markup of the page is fixed; the two values are those of the request, escaped. -/
theorem tokens_verifyConfirmHtml (email code : String) : tokens (verifyConfirmHtml email code) =
    markup (escapeHtmlAttr email).toList (escapeHtmlAttr code).toList := by
  have page : (verifyConfirmHtml email code).toList = pageStart.toList ++
      (escapeHtmlAttr email).toList ++ pageBetween.toList ++ (escapeHtmlAttr code).toList ++
        pageEnd.toList := by
    simp only [verifyConfirmHtml, String.toList_append]
  have ended : finish (.data []) = [] := rfl
  simp only [tokens, page, read_append, read_pageStart, read_value, read_pageBetween,
    read_pageEnd, List.reverse_reverse, ended, List.append_nil, markup, List.append_assoc,
    List.nil_append, List.cons_append]

theorem decode_escapeHtmlAttr (R : References entities) (s : String) :
    R.decode (escapeHtmlAttr s).toList = s.toList := by
  rw [escapeHtmlAttr_eq]
  exact R.decode_substitute entities_escaped s.toList

/-- Escaping leaves no quote and no angle bracket, only ampersands that begin an entity, and can
be undone; so the values of the page are read as they were given, and its markup is fixed. -/
theorem escapeHtmlAttr_lossless :
    (∀ s : String, (∀ c ∈ ['"', '\x27', '<', '>'], c ∉ (escapeHtmlAttr s).toList) ∧
      (∀ before after, (escapeHtmlAttr s).toList = before ++ '&' :: after →
        ∃ entry ∈ entities, entry.2 <+: '&' :: after) ∧
      rewrite (rules entities) (escapeHtmlAttr s).toList = s.toList ∧
      (escapeHtmlAttr s).toList = s.toList.flatMap (substitute entities)) ∧
    (∀ email code : String, ∃ e c,
      tokens (verifyConfirmHtml email code) = markup e c ∧
      ∀ R : References entities, R.decode e = email.toList ∧ R.decode c = code.toList) ∧
    (∀ email code : Option String, AuthController.confirmPage email code =
      verifyConfirmHtml (email.getD "") (code.getD "")) := by
  refine ⟨?_, ?_, fun _ _ => rfl⟩
  · intro s
    refine ⟨fun c special => not_mem_escapeHtmlAttr s special, ?_, ?_, escapeHtmlAttr_eq s⟩
    · intro before after occurs
      rw [escapeHtmlAttr_eq] at occurs
      exact ampersand_substitute entities_bracketed entities_escaped occurs
    · rw [escapeHtmlAttr_eq]
      exact rewrite_substitute entities_bracketed entities_distinct entities_escaped s.toList
  · intro email code
    exact ⟨(escapeHtmlAttr email).toList, (escapeHtmlAttr code).toList,
      tokens_verifyConfirmHtml email code, fun R =>
      ⟨decode_escapeHtmlAttr R email, decode_escapeHtmlAttr R code⟩⟩

end CorePlatform.Auth
