import CorePlatform.Nats.Consumer
import CorePlatform.Notification.Mails

/-! The consumer of `user.registered` in notification-service. Its handler parses the message
and sends the verification mail; `sendMailRegis` catches every error of the latter. -/
namespace CorePlatform.Notification
open Async Nats

/-- What the handler takes from the platform and its libraries: `JSON.parse`, the string
formats of the schemas, and `decrypt` under the configured key. -/
structure Platform where
  jsonParse : String → Option Js
  uuid : String → Bool
  email : String → Bool
  datetime : String → Bool
  decrypt : String → Except Exn String

structure UserRegisteredEvent where
  userId : String
  email : String
  code : String
  createdAt : String
  requestId : Option String

/-- `z.string()` with a format. -/
def stringOf (format : String → Bool) : Js → Option String
  | .str s => if format s then some s else none
  | _ => none

/-- `z.string().optional()` -/
def optionalString : Js → Option (Option String)
  | .undefined => some none
  | .str s => some (some s)
  | _ => none

/-- `UserRegisteredSchema`, none where it throws. -/
def UserRegisteredSchema (platform : Platform) : Js → Option UserRegisteredEvent
  | .obj fields => do
    let data := Js.obj fields
    let userId ← stringOf platform.uuid (data.get "userId")
    let email ← stringOf platform.email (data.get "email")
    let code ← stringOf (fun _ => true) (data.get "code")
    let createdAt ← stringOf platform.datetime (data.get "createdAt")
    let requestId ← optionalString (data.get "requestId")
    return { userId, email, code, createdAt, requestId }
  | _ => none

inductive RegisteredCmd where
  /-- `decrypt(code, getEncryptKey())` -/
  | decrypt (cipherText : String)
  /-- The mail of `MailsService`, handed to the transport. -/
  | sendMail (mail : Mail)

@[reducible] def RegisteredCmd.Resp : RegisteredCmd → Type
  | .decrypt _ => String
  | .sendMail _ => Unit

abbrev RegisteredApi : Interface := ⟨RegisteredCmd, RegisteredCmd.Resp⟩

abbrev Registered := Prog RegisteredApi Exn

def NotificationService.sendMailRegis (userRegisteredEvent : UserRegisteredEvent) : Registered Js :=
  tryCatch (do
    let code ← Prog.perform (I := RegisteredApi) (.decrypt userRegisteredEvent.code)
    Prog.perform (I := RegisteredApi) (.sendMail (.verifyCode userRegisteredEvent.email code))
    return .bool true) fun _ => return .undefined

/-- The payload of a message, where `JSON.parse` and the schema accept it. -/
def readRegistered (platform : Platform) (text : String) : Option UserRegisteredEvent :=
  (platform.jsonParse text).bind (UserRegisteredSchema platform)

/-- The `handle` of the consumer. -/
def JetstreamConsumerService.handle (platform : Platform) (msg : Msg) : Registered Unit :=
  match readRegistered platform msg.text with
  | none => throw (.error none "invalid message")
  | some payload => do
    let _ ← NotificationService.sendMailRegis payload
    return ()

/-- JetStream, and the mails that the transport has accepted, each with the delivery whose
handler sent it. -/
structure MailStore where
  js : JetStream := {}
  handed : List (Option Nat × Mail) := []

def MailStore.exec (platform : Platform) (choice : LoopChoice Exn) (s : MailStore) :
    (c : LoopCmd RegisteredApi) → Option (Except Exn c.Resp × MailStore)
  | .own _ (.decrypt cipherText) => some (choice.fault.elim (platform.decrypt cipherText) .error, s)
  | .own delivery (.sendMail mail) =>
    match choice.fault with
    | some e => some (.error e, s)
    | none => some (.ok (), { s with handed := (delivery, mail) :: s.handed })
  | c => (s.js.exec choice c).map fun (r, js) => (r, { s with js })

/-- Rounds of the consume loop in any instances, and messages that are published. -/
@[reducible] def mailSystem (platform : Platform) :
    System (Loop RegisteredApi) Exn Unit Unit MailStore where
  Choice := LoopChoice Exn
  exec c choice s := s.exec platform choice c
  body _ := BaseJetstreamConsumer.consumeRound (JetstreamConsumerService.handle platform)
  Act := String
  act text s := some { s with js := { s.js with stream := s.js.stream ++ [text] } }

abbrev MailPool := Pool (Loop RegisteredApi) Exn Unit Unit MailStore

section Handler

variable {platform : Platform}

/-- The commands of the handler: the code of the payload is decrypted and then mailed. -/
def HandlerPoint (platform : Platform) (msg : Msg) (handled : List (Event RegisteredApi Exn))
    (c : RegisteredCmd) : Prop :=
  ∃ payload ∈ readRegistered platform msg.text, match c with
    | .decrypt cipherText => cipherText = payload.code
    | .sendMail mail =>
        ∃ code, ⟨.decrypt payload.code, .ok code⟩ ∈ handled ∧ mail = .verifyCode payload.email code

/-- The handler returns after a failed command, or after the mail of the payload. -/
def HandlerEnd (platform : Platform) (msg : Msg) (handled : List (Event RegisteredApi Exn)) :
    Except Exn Unit → Prop
  | .error _ => readRegistered platform msg.text = none
  | .ok _ => (∃ c e, ⟨c, .error e⟩ ∈ handled) ∨
    ∃ payload ∈ readRegistered platform msg.text, ∃ code,
    ⟨.decrypt payload.code, .ok code⟩ ∈ handled ∧
      ⟨.sendMail (.verifyCode payload.email code), .ok ()⟩ ∈ handled

theorem along_handle (msg : Msg) : Along (HandlerPoint platform msg) (HandlerEnd platform msg) []
    (JetstreamConsumerService.handle platform msg) := by
  cases read : readRegistered platform msg.text with
  | none =>
    rw [JetstreamConsumerService.handle, read]
    exact read
  | some payload =>
    rw [JetstreamConsumerService.handle, read]
    refine along_bind.mpr
      (along_catch.mpr (along_bind.mpr ⟨⟨payload, read, rfl⟩, fun decrypted => ?_⟩))
    cases decrypted with
    | error e => exact .inl ⟨_, e, List.mem_cons_self⟩
    | ok code =>
      refine along_bind.mpr ⟨⟨payload, read, code, List.mem_cons_self, rfl⟩, fun sent => ?_⟩
      cases sent with
      | error e => exact .inl ⟨_, e, List.mem_cons_self⟩
      | ok _ =>
          exact .inr ⟨payload, read, code, List.mem_cons_of_mem _ List.mem_cons_self,
            List.mem_cons_self⟩

end Handler
end CorePlatform.Notification
