import CorePlatform.Common.Errors

/-! `HttpExceptionFilter` of the common package, on everything that a handler can throw.
Logging and the time in the body of a reply are left out. -/
namespace CorePlatform

/-- A `code` as the filter declares it in a response: an `ErrorCode`, or none. -/
def isErrorCode : Js → Bool
  | .undefined | .null | .str _ => true
  | .bool _ | .num _ | .arr _ | .obj _ => false

/-- An `HttpException` other than a `BadRequestException`: `getStatus()`, `getResponse()` and
its message. The response of an exception made of a text is the text. -/
structure HttpException where
  status : Nat
  response : Js
  message : String
  coded : isErrorCode (response.get "code") = true

inductive Exception where
  | service (e : ServiceError)
  /-- A `BadRequestException`, with its response. -/
  | badRequest (response : Js)
  | http (e : HttpException)
  /-- Any other `Error`. -/
  | error (message : String)
  /-- A thrown value that is no error at all. -/
  | value (v : Js)

/-- The status and the body of a reply of the filter. -/
structure ErrorReply where
  status : Nat
  messageKey : ErrorCode
  message : String
  errors : Option (List String)
  deriving DecidableEq

namespace ErrorReply

def errorsField (errors : Option (List String)) : List (String × Js) :=
  match errors with
  | none => []
  | some errors => [("errors", .arr (errors.map .str))]

/-- The body as the receiver parses it: a field that is undefined is not sent. -/
def data (reply : ErrorReply) : Js :=
  .obj ([("success", .bool false), ("messageKey", .str reply.messageKey),
    ("message", .str reply.message)] ++ errorsField reply.errors)

end ErrorReply

namespace HttpExceptionFilter

def defaultCodeForStatus (status : Nat) : ErrorCode :=
  match status with
  | 400 => ErrorCodes.VALIDATION_ERROR
  | 401 => ErrorCodes.UNAUTHORIZED
  | 403 => ErrorCodes.FORBIDDEN
  | 404 => ErrorCodes.NOT_FOUND
  | 409 => ErrorCodes.CONFLICT
  | 429 => ErrorCodes.TOO_MANY_REQUESTS
  | _ => ErrorCodes.INTERNAL

/-- `Array.isArray(details) ? details.map(String) : [String(details)]` -/
def textsOf : Js → List String
  | .arr elements => elements.map Js.toText
  | details => [details.toText]

/-- The errors of a body: none without details, and no reply where a conversion throws. -/
def errorsOf (details : Js) : Option (Option (List String)) :=
  if details.truthy then
    if details.printable then some (some (textsOf details)) else none
  else some none

/-- `Array.isArray(message) ? message.join(', ') : String(message)` -/
def messageText : Js → String
  | .arr elements => ", ".intercalate (Js.toTexts elements)
  | message => message.toText

/-- The message of a response, the exception's own where it has none. -/
def rawMessage (e : HttpException) : Option String :=
  match e.response.get "message" with
  | .undefined | .null => some e.message
  | message => if message.printable then some (messageText message) else none

/-- `resp?.code ?? defaultCodeForStatus(statusCode)` -/
def messageKeyOf (e : HttpException) : ErrorCode :=
  match e.response.get "code" with
  | .str code => code
  | _ => defaultCodeForStatus e.status

/-- The four branches of `catch`; absent where the filter itself throws. -/
def render : Exception → Option ErrorReply
  | .service e => do
    let errors ← errorsOf e.details
    return { status := e.statusCode, messageKey := e.code, errors
             message := if e.exposeMessage then e.message else "Request failed" }
  | .badRequest response => do
    let errors ← errorsOf (response.get "message")
    return { status := 400, messageKey := ErrorCodes.VALIDATION_ERROR
             message := "Validation failed", errors }
  | .http e => do
    let rawMessage ← rawMessage e
    let errors ← errorsOf (e.response.get "details")
    return { status := e.status, messageKey := messageKeyOf e, errors
             message := if e.status ≥ 500 then "Internal server error" else rawMessage }
  | .error _ | .value _ => some
    { status := 500, messageKey := ErrorCodes.INTERNAL, message := "Internal server error"
      errors := none }

/-- `res.status` throws for what is not a status. -/
def isStatus (status : Nat) : Bool := 100 ≤ status && status ≤ 999

/-- `catch`, with the reply it sends. -/
def reply (exception : Exception) : Option ErrorReply :=
  (render exception).filter (isStatus ·.status)

end HttpExceptionFilter

/-- The status that the filter answers with. -/
def Exception.status : Exception → Nat
  | .service e => e.statusCode
  | .badRequest _ => 400
  | .http e => e.status
  | .error _ | .value _ => 500

namespace HttpExceptionFilter

variable {exception : Exception} {rendered : ErrorReply}

theorem reply_eq_some : reply exception = some rendered ↔
    render exception = some rendered ∧ isStatus rendered.status = true := Option.filter_eq_some_iff

theorem render_status (shown : render exception = some rendered) :
    rendered.status = exception.status := by
  cases exception with
  | service e =>
    obtain ⟨errors, _, same⟩ := Option.bind_eq_some_iff.mp shown
    cases same
    rfl
  | badRequest response =>
    obtain ⟨errors, _, same⟩ := Option.bind_eq_some_iff.mp shown
    cases same
    rfl
  | http e =>
    obtain ⟨message, _, shown⟩ := Option.bind_eq_some_iff.mp shown
    obtain ⟨errors, _, same⟩ := Option.bind_eq_some_iff.mp shown
    cases same
    rfl
  | error message =>
    cases shown
    rfl
  | value v =>
    cases shown
    rfl

theorem printables_strings (texts : List String) : Js.printables (texts.map .str) = true := by
  induction texts with
  | nil => rfl
  | cons text texts ih =>
      simpa only [List.map_cons, Js.printables, Js.printable, Bool.true_and] using ih

/-- Errors that are texts already stay as they are, the empty list included. -/
theorem errorsOf_texts (texts : List String) :
    errorsOf (.arr (texts.map .str)) = some (some texts) := by
  have same : (texts.map Js.str).map Js.toText = texts := by
    rw [List.map_map]
    exact List.map_id'' (fun text => by simp only [Function.comp, Js.toText]) texts
  simp only [errorsOf, Js.truthy, Js.printable, printables_strings, textsOf, same, if_true]

end HttpExceptionFilter
end CorePlatform
