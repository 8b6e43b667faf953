import CorePlatform.Common.Errors
import CorePlatform.Common.Rewriting

/-! `formatMessage`: one `String.prototype.replace` after the other on a message template, against
the substitution of all parameters at once. -/
namespace CorePlatform.Messages
open Rewriting

def MESSAGE_TEMPLATES : List (String × String) :=
  [("EMAIL_SUBSCRIPTION.SUBSCRIBED", "Đăng ký email thành công"),
    ("EMAIL_SUBSCRIPTION.INVALID_EMAIL_FORMAT", "Định dạng email không hợp lệ"),
    ("EMAIL_SUBSCRIPTION.EXAMPLE_EMAIL", "user@example.com"),
    ("COMMON.SUCCESS", "Thao tác hoàn thành thành công"),
    ("COMMON.OPERATION_COMPLETED", "Thao tác hoàn thành"),
    ("COMMON.LIST_FOUND", "Lấy danh sách thành công"),
    ("COMMON.CREATED", "Tạo mới thành công"),
    ("COMMON.UPDATED", "Cập nhật thành công"),
    ("COMMON.DELETED", "Xóa thành công"),
    ("COMMON.INTERNAL_ERROR", "Lỗi máy chủ"),
    ("COMMON.VALIDATION_ERROR", "Lỗi xác thực dữ liệu"),
    ("COMMON.UNAUTHORIZED", "Truy cập không được phép"),
    ("COMMON.FORBIDDEN", "Truy cập bị cấm"),
    ("COMMON.BAD_REQUEST", "Yêu cầu không hợp lệ"),
    ("COMMON.NOT_FOUND", "Không tìm thấy dữ liệu"),
    ("COMMON.ALREADY_EXISTS", "Dữ liệu đã tồn tại"),
    ("COMMON.CANNOT_BE_CREATED", "Không thể tạo"),
    ("COMMON.CANNOT_BE_UPDATED", "Không thể cập nhật"),
    ("COMMON.CANNOT_BE_DELETED", "Không thể xóa"),
    ("COMMON.INVALID_DATA", "Dữ liệu không hợp lệ"),
    ("VALIDATION.REQUIRED", "\x7bfield\x7d là bắt buộc"),
    ("VALIDATION.INVALID_EMAIL", "Định dạng email không hợp lệ"),
    ("VALIDATION.INVALID_PHONE", "Định dạng số điện thoại không hợp lệ"),
    ("VALIDATION.INVALID_ROLE", "Vai trò không hợp lệ"),
    ("VALIDATION.MIN_LENGTH", "\x7bfield\x7d phải có ít nhất \x7bmin\x7d ký tự"),
    ("VALIDATION.MAX_LENGTH", "\x7bfield\x7d không được vượt quá \x7bmax\x7d ký tự"),
    ("FILTER_AND_SORT.ONLY_ONE_SORT_PARAM",
      "Chỉ được phép sử dụng một trong hai tham số sắp xếp: sortAz hoặc sortPrice"),
    ("FILTER_AND_SORT.INVALID_MIN_MAX_PRICE", "Giá trị minPrice và maxPrice phải là số hợp lệ"),
    ("FILTER_AND_SORT.MIN_PRICE_LESS_THAN_MAX", "Giá tối thiểu phải nhỏ hơn hoặc bằng giá tối đa"),
    ("FILTER_AND_SORT.INVALID_CATEGORY_ID", "ID danh mục không hợp lệ"),
    ("FILTER_AND_SORT.INVALID_TAG_ID", "ID thẻ không hợp lệ")]

/-- The members of `Object.prototype`, which a lookup of their names finds in every object. -/
def inherited : List String :=
  ["__proto__", "constructor", "hasOwnProperty", "isPrototypeOf", "propertyIsEnumerable",
    "toLocaleString", "toString", "valueOf", "__defineGetter__", "__defineSetter__",
    "__lookupGetter__", "__lookupSetter__"]

inductive Message where
  | text (s : String)
  /-- A member of every object, which is no text. -/
  | inherited (name : String)
  deriving DecidableEq

/-- `MESSAGE_TEMPLATES[key] || key` -/
def template (key : String) : Message :=
  match MESSAGE_TEMPLATES.lookup key with
  | some text => .text (if text = "" then key else text)
  | none => if key ∈ inherited then .inherited key else .text key

/-- The template of a key that names no member of every object. -/
def templateText (key : String) : String := (MESSAGE_TEMPLATES.lookup key).getD key

theorem template_eq (key : String) :
    template key = if key ∈ inherited then .inherited key else .text (templateText key) := by
  have filled : ∀ entry ∈ MESSAGE_TEMPLATES, entry.2 ≠ "" ∧ entry.1 ∉ inherited := by
    decide +kernel
  rw [template, templateText]
  cases found : MESSAGE_TEMPLATES.lookup key with
  | none => rfl
  | some text =>
    obtain ⟨front, back, split, -⟩ := List.lookup_eq_some_iff.mp found
    have own : (key, text) ∈ MESSAGE_TEMPLATES := by
      rw [split]
      exact List.mem_append_right _ List.mem_cons_self
    obtain ⟨nonempty, apart⟩ := filled _ own
    simp only [apart, nonempty, if_false, Option.getD_some]

/-- `GetSubstitution` without captures. -/
def getSubstitution (matched before after : List Char) : List Char → List Char
  | '$' :: c :: rest =>
    if c = '$' then '$' :: getSubstitution matched before after rest
    else if c = '&' then matched ++ getSubstitution matched before after rest
    else if c = '\x60' then before ++ getSubstitution matched before after rest
    else if c = '\x27' then after ++ getSubstitution matched before after rest
    else '$' :: getSubstitution matched before after (c :: rest)
  | c :: rest => c :: getSubstitution matched before after rest
  | [] => []

/-- `message.replace(searchValue, replaceValue)` -/
def replace (message searchValue replaceValue : String) : String :=
  String.ofList
    (rewriteFirst getSubstitution ⟨searchValue.toList, replaceValue.toList⟩ message.toList)

/-- `{${param}}` -/
def placeholder (param : String) : String := "\x7b" ++ param ++ "\x7d"

/-- A record: its entries in the order of `Object.entries`, no name twice. -/
structure Params (α : Type) where
  entries : List (String × α)
  distinct : (entries.map Prod.fst).Nodup

/-- `String(value)` -/
def stringOf (value : Js) : Except Exn String :=
  match value.template? with
  | some text => .ok text
  | none => .error (.error none "Cannot convert object to primitive value")

variable {α : Type} (string : α → Except Exn String)

/-- The loop over the entries; `string` is `String(value)`. -/
def fill : List (String × α) → String → Except Exn String
  | [], message => .ok message
  | (param, value) :: entries, message => do
    let text ← string value
    fill entries (replace message (placeholder param) text)

def formatMessage (key : String) (params : Option (Params α)) : Except Exn Message :=
  let entries := params.elim [] Params.entries
  match template key with
  | .text message => (fill string entries message).map .text
  | .inherited name =>
    match entries with
    | [] => .ok (.inherited name)
    | (_, value) :: _ => do
      let _ ← string value
      throw (.error none "message.replace is not a function")

structure ApiResponse (β : Type) where
  success : Bool
  messageKey : String
  message : Message
  data : Option β
  errors : Option (List String)
  timestamp : String

/-- What the wrappers of a response have in common; `now` is `new Date().toISOString()`. -/
def respond {β : Type} (now : String) (success : Bool) (messageKey : String)
    (params : Option (Params α)) (data : Option β) (errors : Option (List String)) :
    Except Exn (ApiResponse β) := do
  let message ← formatMessage string messageKey params
  return { success, messageKey, message, data, errors, timestamp := now }

def successResponse {β : Type} (now : String) (data : β) (messageKey : Option String)
    (params : Option (Params α)) : Except Exn (ApiResponse β) :=
  respond string now true (messageKey.getD "COMMON.SUCCESS") params (some data) none

def errorResponse (now : String) (messageKey : String) (params : Option (Params α))
    (errors : Option (List String)) : Except Exn (ApiResponse Unit) :=
  respond string now false messageKey params none errors

/-- A parameter as a rule. -/
def rule (entry : String × String) : Rule Char :=
  ⟨(placeholder entry.1).toList, entry.2.toList⟩

/-- Every placeholder of a parameter becomes its text, at once, and the rest stays. -/
def simultaneous (message : String) (texts : List (String × String)) : String :=
  String.ofList (rewrite (texts.map rule) message.toList)

/-- The message in its placeholders and the characters between them. -/
def parts (message : String) (texts : List (String × String)) : List (Piece Char) :=
  pieces (texts.map rule) 0 message.toList

/-- No placeholder of a parameter stands in the message twice. -/
def Single (message : String) (texts : List (String × String)) : Prop :=
  (holes (parts message texts)).Nodup

/-- A text without the patterns `$$`, `$&`, and `$` with a quote of either kind. -/
def isLiteral : List Char → Bool
  | '$' :: c :: rest => (c ∉ ['$', '&', '\x60', '\x27']) && isLiteral (c :: rest)
  | _ :: rest => isLiteral rest
  | [] => true

/-- The texts that are put into the message are literal. -/
def Literal (message : String) (texts : List (String × String)) : Prop :=
  ∀ r ∈ holes (parts message texts), isLiteral r.right = true

/-- In the order of the entries, no text that is put in makes a placeholder of a later one that
comes before its own. -/
def Orderly (message : String) (texts : List (String × String)) : Prop :=
  Undisturbed (texts.map rule) (parts message texts)

theorem getSubstitution_literal {right : List Char} (literal : isLiteral right = true)
    (matched before after : List Char) : getSubstitution matched before after right = right := by
  induction right using isLiteral.induct with
  | case1 c rest ih =>
    simp only [isLiteral, Bool.and_eq_true, decide_eq_true_eq, List.mem_cons, List.not_mem_nil,
      or_false, not_or] at literal
    obtain ⟨⟨dollar, ampersand, backquote, quote⟩, literal⟩ := literal
    rw [getSubstitution, if_neg dollar, if_neg ampersand, if_neg backquote, if_neg quote,
      ih literal]
  | case2 c rest other ih =>
    rw [isLiteral.eq_2 _ _ other] at literal
    rw [getSubstitution.eq_2 _ _ _ _ _ other, ih literal]
  | case3 => rfl

/-- In the place of a brace, with nothing around it, a text with patterns gets braces or gets
shorter. -/
theorem getSubstitution_measure {matched : List Char} (brace : '\x7b' ∈ matched)
    (right : List Char) :
    right.count '\x7b' ≤ (getSubstitution matched [] [] right).count '\x7b' ∧
      ((getSubstitution matched [] [] right).count '\x7b' = right.count '\x7b' →
        (getSubstitution matched [] [] right).length ≤ right.length ∧
          (isLiteral right = false →
            (getSubstitution matched [] [] right).length < right.length)) := by
  have more : 0 < matched.count '\x7b' := List.count_pos_iff.mpr brace
  have dollar_count : ∀ cs : List Char, ('$' :: cs).count '\x7b' = cs.count '\x7b' :=
    fun cs => List.count_cons_of_ne (by decide)
  fun_induction getSubstitution matched [] [] right with
  | case1 rest ih =>
    simp only [dollar_count, List.length_cons]
    omega
  | case2 rest _ ih =>
    have same : ('&' :: rest).count '\x7b' = rest.count '\x7b' :=
      List.count_cons_of_ne (by decide)
    simp only [dollar_count, same, List.count_append]
    omega
  | case3 rest _ _ ih =>
    have same : ('\x60' :: rest).count '\x7b' = rest.count '\x7b' :=
      List.count_cons_of_ne (by decide)
    simp only [dollar_count, same, List.nil_append, List.length_cons]
    omega
  | case4 rest _ _ _ ih =>
    have same : ('\x27' :: rest).count '\x7b' = rest.count '\x7b' :=
      List.count_cons_of_ne (by decide)
    simp only [dollar_count, same, List.nil_append, List.length_cons]
    omega
  | case5 c rest dollar ampersand backquote quote ih =>
    have kept : isLiteral ('$' :: c :: rest) = isLiteral (c :: rest) := by
      simp only [isLiteral, List.mem_cons, dollar, ampersand, backquote, quote, List.not_mem_nil,
        or_self, not_false_eq_true, decide_true, Bool.true_and]
    rw [kept, dollar_count, dollar_count, List.length_cons, List.length_cons, Nat.succ_le_succ_iff,
      Nat.succ_lt_succ_iff]
    exact ih
  | case6 c rest other ih =>
    rw [isLiteral.eq_2 _ _ other, List.count_cons, List.count_cons, List.length_cons,
      List.length_cons, Nat.succ_le_succ_iff, Nat.succ_lt_succ_iff, Nat.add_le_add_iff_right,
      Nat.add_right_cancel_iff]
    exact ih
  | case7 => exact ⟨le_rfl, fun _ => ⟨le_rfl, fun special => absurd special (by decide)⟩⟩

/-- Only a literal text is put in as it is, whatever it replaces. -/
theorem isLiteral_iff {matched right : List Char} (brace : '\x7b' ∈ matched) :
    getSubstitution matched [] [] right = right ↔ isLiteral right = true := by
  constructor
  · intro kept
    by_contra special
    obtain ⟨-, shorter⟩ := getSubstitution_measure brace right
    rw [kept] at shorter
    exact lt_irrefl _ ((shorter rfl).2 (Bool.eq_false_iff.mpr special))
  · exact fun literal => getSubstitution_literal literal matched [] []

theorem toList_placeholder (param : String) :
    (placeholder param).toList = '\x7b' :: param.toList ++ ['\x7d'] := by
  simp only [placeholder, String.toList_append]
  rfl

theorem rule_filled (texts : List (String × String)) : ∀ r ∈ texts.map rule, r.left ≠ [] := by
  intro r member
  obtain ⟨entry, -, rfl⟩ := List.mem_map.mp member
  rw [rule, toList_placeholder]
  exact List.cons_ne_nil _ _

/-- The opening brace tells placeholders from texts without one. -/
theorem rule_marked {texts : List (String × String)}
    (plain : ∀ entry ∈ texts, '\x7b' ∉ entry.2.toList) :
    ∀ r ∈ texts.map rule, '\x7b' ∈ r.left ∧ '\x7b' ∉ r.right := by
  intro r member
  obtain ⟨entry, listed, rfl⟩ := List.mem_map.mp member
  rw [rule, toList_placeholder]
  exact ⟨List.mem_cons_self, plain entry listed⟩

theorem rule_distinct {texts : List (String × String)} (distinct : (texts.map Prod.fst).Nodup) :
    ((texts.map rule).map Rule.left).Nodup := by
  have injective : Function.Injective fun param => (placeholder param).toList := by
    intro a b same
    simp only [toList_placeholder, List.cons_append, List.cons.injEq, true_and,
      List.append_left_inj] at same
    exact String.toList_inj.mp same
  have lefts : (texts.map rule).map Rule.left =
      (texts.map Prod.fst).map fun param => (placeholder param).toList := by
    rw [List.map_map, List.map_map]
    rfl
  rw [lefts]
  exact distinct.map injective

theorem text_parts (message : String) (texts : List (String × String)) :
    Rewriting.text (parts message texts) = message.toList :=
  text_pieces (rule_filled texts) 0 message.toList

/-- The texts of the values, entry by entry. -/
def Shown (entries : List (String × α)) (texts : List (String × String)) : Prop :=
  List.Forall₂ (fun entry shown => entry.1 = shown.1 ∧ string entry.2 = .ok shown.2) entries texts

section Runs

variable {string} {entries : List (String × α)} {texts : List (String × String)}

theorem Shown.names (shown : Shown string entries texts) :
    texts.map Prod.fst = entries.map Prod.fst := by
  induction shown with
  | nil => rfl
  | cons first _ ih => rw [List.map_cons, List.map_cons, first.1, ih]

/-- The loop applies the rules one after the other. -/
theorem fill_eq (shown : Shown string entries texts) (message : String) :
    fill string entries message =
      .ok (String.ofList (rewriteEach getSubstitution (texts.map rule) message.toList)) := by
  induction shown generalizing message with
  | nil => exact congrArg Except.ok String.ofList_toList.symm
  | @cons entry text entries texts first _ ih =>
    obtain ⟨param, value⟩ := entry
    obtain ⟨rfl, converted⟩ := first
    rw [fill, converted]
    refine (ih _).trans ?_
    rw [replace, String.toList_ofList]
    rfl

theorem formatMessage_eq {key message : String} (found : template key = .text message)
    (params : Params α) (shown : Shown string params.entries texts) :
    formatMessage string key (some params) = .ok (.text
      (String.ofList (rewriteEach getSubstitution (texts.map rule) message.toList))) := by
  have filled := fill_eq shown message
  simp only [formatMessage, found, Option.elim_some, filled, Except.map]

theorem formatMessage_iff {key message : String} (found : template key = .text message)
    (params : Params α) (shown : Shown string params.entries texts) :
    formatMessage string key (some params) = .ok (.text (simultaneous message texts)) ↔
      rewriteEach getSubstitution (texts.map rule) (Rewriting.text (parts message texts)) =
        filled (parts message texts) := by
  rw [formatMessage_eq found params shown, text_parts, Except.ok.injEq, Message.text.injEq,
    simultaneous, String.ofList_inj]
  rfl

theorem parts_known (message : String) (r : Rule Char)
    (member : r ∈ holes (parts message texts)) : r ∈ texts.map rule :=
  mem_pieces (mem_holes.mp member)

theorem literal_expand {message : String} (literal : Literal message texts) (r : Rule Char)
    (member : .hole r ∈ parts message texts) (matched before after : List Char) :
    getSubstitution matched before after r.right = r.right :=
  getSubstitution_literal (literal r (mem_holes.mpr member)) matched before after

/-- The order of the parameters does not matter to the substitution of all at once. -/
theorem simultaneous_perm {other : List (String × String)} (perm : other.Perm texts)
    (distinct : (texts.map Prod.fst).Nodup) (message : String) :
    simultaneous message other = simultaneous message texts := by
  have distinct' := rule_distinct ((perm.map Prod.fst).nodup_iff.mpr distinct)
  rw [simultaneous, simultaneous, rewrite, rewrite,
    pieces_perm (perm.map rule) distinct' 0 message.toList]

/-- One after the other is all at once, where the parameters do not meet each other. -/
theorem formatMessage_once {key message : String} (found : template key = .text message)
    (params : Params α) (shown : Shown string params.entries texts)
    (single : Single message texts) (literal : Literal message texts)
    (orderly : Orderly message texts) :
    formatMessage string key (some params) = .ok (.text (simultaneous message texts)) := by
  rw [formatMessage_iff found params shown]
  exact rewriteEach_once orderly (literal_expand literal) (parts_known message) single

/-- The responses carry that message. -/
theorem responses_once {β : Type} {key message : String} (found : template key = .text message)
    (params : Params α) (shown : Shown string params.entries texts)
    (single : Single message texts) (literal : Literal message texts)
    (orderly : Orderly message texts) (now : String) (data : β) (errors : Option (List String)) :
    successResponse string now data (some key) (some params) =
        .ok ⟨true, key, .text (simultaneous message texts), some data, none, now⟩ ∧
      errorResponse string now key (some params) errors =
        .ok ⟨false, key, .text (simultaneous message texts), none, errors, now⟩ := by
  have formatted := formatMessage_once found params shown single literal orderly
  constructor
  · rw [successResponse, Option.getD_some, respond, formatted]
    rfl
  · rw [errorResponse, respond, formatted]
    rfl

/-- Names without braces, and texts and a message without an opening one. -/
theorem orderly_of_plain {message : String} (distinct : (texts.map Prod.fst).Nodup)
    (names : ∀ entry ∈ texts, '\x7b' ∉ entry.1.toList ∧ '\x7d' ∉ entry.1.toList)
    (plain : ∀ entry ∈ texts, '\x7b' ∉ entry.2.toList)
    (literals : .literal '\x7b' ∉ parts message texts) : Orderly message texts := by
  have marked : Marked '\x7b' '\x7d' (texts.map rule) (parts message texts) := by
    refine ⟨by decide, rule_distinct distinct, ?_, ?_, parts_known message, literals⟩
    · intro r member
      obtain ⟨entry, listed, rfl⟩ := List.mem_map.mp member
      exact ⟨entry.1.toList, toList_placeholder entry.1, names entry listed⟩
    · exact fun r member => (rule_marked plain r member).2
  exact marked.undisturbed (List.Subset.refl _)

end Runs

section Alone

variable (param : String)

theorem opening_placeholder : (placeholder param).toList.head? = some '\x7b' := by
  rw [toList_placeholder]
  rfl

/-- A placeholder is no key, so it is its own template. -/
theorem template_placeholder : template (placeholder param) = .text (placeholder param) := by
  have keys : ∀ entry ∈ MESSAGE_TEMPLATES, entry.1.toList.head? ≠ some '\x7b' := by
    decide +kernel
  have members : ∀ name ∈ inherited, name.toList.head? ≠ some '\x7b' := by decide +kernel
  have unknown : MESSAGE_TEMPLATES.lookup (placeholder param) = none := by
    rw [List.lookup_eq_none_iff]
    intro entry listed
    exact bne_iff_ne.mpr fun same => keys entry listed (same ▸ opening_placeholder param)
  have own : placeholder param ∉ inherited :=
    fun listed => members _ listed (opening_placeholder param)
  rw [template, unknown]
  exact if_neg own

theorem simultaneous_placeholder (text : String) :
    simultaneous (placeholder param) [(param, text)] = text := by
  have front : longest [rule (param, text)] ((rule (param, text)).left ++ []) =
      some (rule (param, text)) := by
    refine longest_eq List.mem_cons_self (List.prefix_append _ _) fun s member _ => ?_
    exact .inl (List.mem_singleton.mp member)
  have hole := pieces_hole (rule_filled [(param, text)] _ List.mem_cons_self) front
  rw [List.append_nil] at hole
  have whole : rewrite [rule (param, text)] (placeholder param).toList = text.toList := by
    refine (congrArg filled hole).trans ?_
    exact List.append_nil _
  rw [simultaneous, List.map_cons, List.map_nil, whole, String.ofList_toList]

/-- Where a placeholder is all there is, exactly the literal texts come out. -/
theorem formatMessage_placeholder {value : α} {text : String} (shown : string value = .ok text) :
    formatMessage string (placeholder param) (some ⟨[(param, value)], List.nodup_singleton _⟩) =
        .ok (.text (simultaneous (placeholder param) [(param, text)])) ↔
      isLiteral text.toList = true := by
  have entries : Shown string [(param, value)] [(param, text)] := .cons ⟨rfl, shown⟩ .nil
  have occurs : (placeholder param).toList = [] ++ (rule (param, text)).left ++ [] :=
    (List.append_nil _).symm
  have first : splitFirst (rule (param, text)).left (placeholder param).toList = some ([], []) :=
    splitFirst_eq occurs fun _ _ _ => Nat.zero_le _
  have brace : '\x7b' ∈ (placeholder param).toList := by
    rw [toList_placeholder]
    exact List.mem_cons_self
  rw [formatMessage_eq (template_placeholder param) _ entries, simultaneous_placeholder,
    ← isLiteral_iff brace, Except.ok.injEq, Message.text.injEq, ← String.toList_inj,
    String.toList_ofList, List.map_cons, List.map_nil, rewriteEach, List.foldl_cons,
    List.foldl_nil, rewriteFirst, first]
  simp only [List.nil_append, List.append_nil]
  rfl

end Alone

/-- A member of every object has no `replace`, and is no text. -/
theorem formatMessage_inherited {key : String} (named : key ∈ inherited) (params : Params α)
    {texts : List (String × String)} (shown : Shown string params.entries texts) :
    formatMessage string key (some params) =
      if texts = [] then .ok (.inherited key)
      else .error (.error none "message.replace is not a function") := by
  have found : template key = .inherited key := (template_eq key).trans (if_pos named)
  obtain ⟨entries, distinct⟩ := params
  simp only [formatMessage, found, Option.elim_some]
  cases shown with
  | nil => rfl
  | cons first _ =>
    simp only [first.2]
    rfl

/-- `formatMessage` is the substitution of all parameters at once where the key names no member of
every object, no placeholder stands twice, the texts put in are literal, and none of them makes a
placeholder of a later parameter before its own. For a key that names one there is no message
at all. Where no text has an opening brace, the second is needed; in a message that is a
placeholder and nothing else, the third. -/
theorem formatMessage_simultaneous (key : String) (params : Params α)
    {texts : List (String × String)} (shown : Shown string params.entries texts) :
    (key ∉ inherited → Single (templateText key) texts → Literal (templateText key) texts →
      Orderly (templateText key) texts →
      formatMessage string key (some params) =
        .ok (.text (simultaneous (templateText key) texts))) ∧
    (key ∈ inherited → (∀ text, formatMessage string key (some params) ≠ .ok (.text text)) ∧
      (texts ≠ [] → formatMessage string key (some params) =
        .error (.error none "message.replace is not a function"))) ∧
    (key ∉ inherited → Literal (templateText key) texts → Orderly (templateText key) texts →
      (∀ entry ∈ texts, '\x7b' ∉ entry.2.toList) →
        (formatMessage string key (some params) =
          .ok (.text (simultaneous (templateText key) texts)) ↔
            Single (templateText key) texts)) ∧
    (∀ param value text, string value = .ok text →
      (formatMessage string (placeholder param)
          (some ⟨[(param, value)], List.nodup_singleton _⟩) =
        .ok (.text (simultaneous (placeholder param) [(param, text)])) ↔
          isLiteral text.toList = true)) ∧
    ∀ message, ∀ other : List (String × String), other.Perm texts →
      simultaneous message other = simultaneous message texts := by
  have distinct : (texts.map Prod.fst).Nodup := shown.names ▸ params.distinct
  have found : key ∉ inherited → template key = .text (templateText key) :=
    fun own => (template_eq key).trans (if_neg own)
  refine ⟨fun own => formatMessage_once (found own) params shown, ?_, ?_,
    fun param _ _ converted => formatMessage_placeholder string param converted,
    fun message other perm => simultaneous_perm perm distinct message⟩
  · intro named
    rw [formatMessage_inherited string named params shown]
    refine ⟨?_, fun some' => if_neg some'⟩
    intro text
    split
    · exact fun same => Message.noConfusion (Except.ok.inj same)
    · intro failed
      contradiction
  · intro own literal orderly plain
    rw [formatMessage_iff (found own) params shown]
    have rules : (texts.map rule).Nodup := .of_map _ (rule_distinct distinct)
    exact rewriteEach_iff orderly (literal_expand literal) (parts_known _) rules (rule_marked plain)

/-- The message about a minimal length, with both of its parameters. -/
theorem minLength_filled :
    formatMessage stringOf "VALIDATION.MIN_LENGTH"
        (some ⟨[("field", .str "Mật khẩu"), ("min", .num "8")], by decide⟩) =
      .ok (.text "Mật khẩu phải có ít nhất 8 ký tự") := by
  have text : templateText "VALIDATION.MIN_LENGTH" =
      "\x7bfield\x7d phải có ít nhất \x7bmin\x7d ký tự" := by decide +kernel
  have shown : Shown stringOf [("field", .str "Mật khẩu"), ("min", .num "8")]
      [("field", "Mật khẩu"), ("min", "8")] := .cons ⟨rfl, rfl⟩ (.cons ⟨rfl, rfl⟩ .nil)
  have orderly : Orderly "\x7bfield\x7d phải có ít nhất \x7bmin\x7d ký tự"
      [("field", "Mật khẩu"), ("min", "8")] :=
    orderly_of_plain (by decide) (by decide +kernel) (by decide +kernel) (by decide +kernel)
  have single : Single "\x7bfield\x7d phải có ít nhất \x7bmin\x7d ký tự"
      [("field", "Mật khẩu"), ("min", "8")] := by
    rw [Single]
    decide +kernel
  have literal : Literal "\x7bfield\x7d phải có ít nhất \x7bmin\x7d ký tự"
      [("field", "Mật khẩu"), ("min", "8")] := by
    rw [Literal]
    decide +kernel
  have filled := (formatMessage_simultaneous stringOf "VALIDATION.MIN_LENGTH" ⟨_, by decide⟩
    shown).1 (by decide +kernel)
  rw [text] at filled
  rw [filled single literal orderly]
  decide +kernel

/-- A text with a pattern, a text like a placeholder of a later parameter, whose message depends
on the order, a placeholder that stands twice, and a key that every object has. -/
theorem parameters_interfere :
    (formatMessage stringOf "VALIDATION.REQUIRED" (some ⟨[("field", .str "$&")], by decide⟩) =
        .ok (.text "\x7bfield\x7d là bắt buộc") ∧
      simultaneous "\x7bfield\x7d là bắt buộc" [("field", "$&")] = "$& là bắt buộc") ∧
    (formatMessage stringOf "VALIDATION.MIN_LENGTH"
          (some ⟨[("field", .str "\x7bmin\x7d"), ("min", .num "8")], by decide⟩) =
        .ok (.text "8 phải có ít nhất \x7bmin\x7d ký tự") ∧
      formatMessage stringOf "VALIDATION.MIN_LENGTH"
          (some ⟨[("min", .num "8"), ("field", .str "\x7bmin\x7d")], by decide⟩) =
        .ok (.text "\x7bmin\x7d phải có ít nhất 8 ký tự")) ∧
    (formatMessage stringOf "\x7ba\x7d \x7ba\x7d" (some ⟨[("a", .num "1")], by decide⟩) =
        .ok (.text "1 \x7ba\x7d") ∧
      simultaneous "\x7ba\x7d \x7ba\x7d" [("a", "1")] = "1 1") ∧
    formatMessage stringOf "constructor" (some ⟨[("a", .num "1")], by decide⟩) =
      .error (.error none "message.replace is not a function") := by
  decide +kernel

/-- Two patterns that undo each other. -/
example : formatMessage stringOf "\x7ba\x7d\x7bb\x7d$$\x27"
    (some ⟨[("a", .str "$$"), ("b", .str "$\x27")], by decide⟩) =
      .ok (.text (simultaneous "\x7ba\x7d\x7bb\x7d$$\x27" [("a", "$$"), ("b", "$\x27")])) := by
  decide +kernel

end CorePlatform.Messages
